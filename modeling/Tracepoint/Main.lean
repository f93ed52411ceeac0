/-
**The program.**

Writes what the command line comes to and ends with its status.
-/

import Tracepoint.Cli

set_option relaxedAutoImplicit false
set_option autoImplicit false

/-- Runs the command line. -/
def main (args : List String) : IO UInt32 := do
  let output := Tracepoint.Cli.run args
  IO.print output.out
  IO.eprint output.err
  return output.status.toUInt32
