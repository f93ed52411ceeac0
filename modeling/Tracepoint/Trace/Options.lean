/-
**Options of a trace.**

Each argument sets one option.  The first argument that is no option decides the error; of two
arguments that set the same option the later one counts.

Main definitions:

* `Tracepoint.Trace.Options` — the options, with their defaults;
* `Tracepoint.Trace.OptionError` — why an argument is refused, with its wording;
* `Tracepoint.Trace.Options.set` — what one argument sets;
* `Tracepoint.Trace.Options.parse` — what a list of arguments sets.
-/

import Tracepoint.EventSet
import Tracepoint.Tool

set_option relaxedAutoImplicit false
set_option autoImplicit false

namespace Tracepoint.Trace

/-- The options of a trace. -/
structure Options where
  /-- The events to listen to: by default all but single instructions. -/
  events : EventSet := .full \ .single .instruction
  tool : Tool := Tool.debugger
  /-- Whether to listen to the entry function of the sample only. -/
  onlyEntry : Bool := false
  disable : Bool := false
  repetitions : Nat := 1
  /-- Whether to report again after each run what was reported before. -/
  restart : Bool := false
  maxDepth : Nat := 1000

instance : Inhabited Options := ⟨{}⟩

/-- Why an argument is refused. -/
inductive OptionError where
  | unknownOption (text : String)
  | event (e : UnknownEvent)
  | tool (text : String)
  | count (text option : String)
  deriving DecidableEq

def OptionError.message : OptionError → String
  | unknownOption text => "unknown option '" ++ text ++ "'"
  | event e => e.message
  | tool text =>
      "invalid tool '" ++ text ++
        "' (expected 0-5, debugger, coverage, profiler or optimizer)"
  | count text option => "invalid count '" ++ text ++ "' for " ++ option

def parseTool (text : String) : Except OptionError Tool :=
  match Tool.parse? text with
  | some t => .ok t
  | none => .error (.tool text)

/-- The positive number of at most 64 bits that a text gives to an option. -/
def parseCount (option text : String) : Except OptionError Nat :=
  match Text.parseUnsigned 0x10000000000000000 text with
  | some (n + 1) => .ok (n + 1)
  | _ => .error (.count text option)

def parseEvents (text : String) : Except OptionError EventSet :=
  match EventSet.parse text with
  | .ok events => .ok events
  | .error e => .error (.event e)

/-- The rest of an argument that begins with a given text. -/
def after? (lead arg : String) : Option String :=
  (lead.toList.isPrefixOf? arg.toList).map String.ofList

namespace Options

/-- The options after one argument. -/
def set (o : Options) (arg : String) : Except OptionError Options :=
  match after? "--events=" arg, after? "--tool=" arg, after? "--repeat=" arg,
      after? "--max-depth=" arg with
  | some text, _, _, _ => return { o with events := ← parseEvents text }
  | _, some text, _, _ => return { o with tool := ← parseTool text }
  | _, _, some text, _ => return { o with repetitions := ← parseCount "--repeat" text }
  | _, _, _, some text => return { o with maxDepth := ← parseCount "--max-depth" text }
  | _, _, _, _ =>
      if arg = "--local" then .ok { o with onlyEntry := true }
      else if arg = "--disable" then .ok { o with disable := true }
      else if arg = "--restart" then .ok { o with restart := true }
      else .error (.unknownOption arg)

def parse (args : List String) : Except OptionError Options :=
  args.foldlM set {}

end Options

end Tracepoint.Trace
