/-
**The command line.**

The first argument is a command: to trace a sample, or to list the samples, the events, the help
or the version.  A command writes to the two output channels and ends with a status.

Main definitions:

* `Tracepoint.Cli.Output` — what a command writes and how it ends;
* `Tracepoint.Cli.run` — **what the arguments come to**.
-/

import Tracepoint.Trace.Report

set_option relaxedAutoImplicit false
set_option autoImplicit false

namespace Tracepoint.Cli

/-- What a command writes and how it ends. -/
structure Output where
  out : String
  err : String
  status : Nat

def lines (ls : List String) : String :=
  String.join (ls.map (· ++ "\n"))

def succeed (ls : List String) : Output := ⟨lines ls, "", 0⟩

def fail (ls : List String) : Output := ⟨"", lines ls, 1⟩

def usage : List String :=
  ["Vigil - multi-tool execution monitoring",
    "",
    "Usage: vigil <command> [options]",
    "",
    "Commands:",
    "  trace <sample>       Run a sample under a tool and print each event",
    "  samples              List the bundled sample programs",
    "  events               List event kinds with their bits and payload shapes",
    "  help                 Show this help message",
    "  version              Show version information",
    "",
    "Trace options:",
    "  --events=<list>      Comma-separated event names, or `all`",
    "                       (default: everything but INSTRUCTION)",
    "  --tool=<id>          Tool slot 0-5 or debugger, coverage, profiler, optimizer",
    "  --local              Arm the sample's own code only",
    "  --disable            Disable each event location after its first report",
    "  --repeat=<n>         Run the sample n times",
    "  --restart            Re-enable disabled locations between runs",
    "  --max-depth=<n>      Maximum interpreted call depth (default: 1000)",
    "",
    "Examples:",
    "  vigil trace floop --events=line",
    "  vigil trace mixed --events=call --tool=profiler",
    "  vigil trace floop --events=line --disable --repeat=2 --restart",
    "  RUST_LOG=vigil_monitor=debug vigil trace g1"]

def version : String := "Vigil 0.1.0-alpha.1"

/-- A row of the table of events. -/
def eventRow (name bit shape parent : String) : String :=
  Text.padRight 18 name ++ " " ++ Text.padLeft 6 bit ++ "  " ++ Text.padRight 12 shape ++ " " ++
    parent

def eventTable : List String :=
  eventRow "EVENT" "BIT" "SHAPE" "DERIVED FROM" ::
    Event.all.map fun e =>
      Text.trimEnd (eventRow e.name
        ("0x" ++ String.ofList (Nat.toDigits 16 (EventSet.single e).bits.toNat)) e.shape.name
        (e.parent?.elim "" Event.name))

def sampleTable : List String :=
  Sample.all.map fun s => "  " ++ Text.padRight 24 s.name ++ " " ++ s.summary

/-- What the run with a number came to. -/
def outcomeLine (h : Heap) (i : Nat) : Except Exception Value → String
  | .ok v => "run " ++ toString i ++ ": returned " ++ h.shown v
  | .error e => "run " ++ toString i ++ ": raised " ++ e.text

/-- The lines of a trace and of what its runs came to. -/
def reportLines (r : Trace.Report) : List String :=
  r.lines ++ r.outcomes.mapIdx (outcomeLine r.heap)

def trace (sample : String) (args : List String) : Output :=
  match Trace.Options.parse args with
  | .error e => fail ["error: " ++ e.message]
  | .ok options =>
      match Trace.run sample options with
      | .error e => fail ["error: " ++ e.message]
      | .ok report => succeed (reportLines report)

/-- **What the arguments come to.** -/
def run : List String → Output
  | [] => succeed usage
  | "trace" :: [] =>
      fail ["Usage: vigil trace <sample> [options]", "",
        "Run `vigil samples` to list the samples."]
  | "trace" :: sample :: args => trace sample args
  | "samples" :: _ => succeed sampleTable
  | "events" :: _ => succeed eventTable
  | "help" :: _ | "--help" :: _ | "-h" :: _ => succeed usage
  | "version" :: _ | "--version" :: _ | "-v" :: _ => succeed [version]
  | command :: _ => ⟨lines usage, lines ["Unknown command: " ++ command, ""], 1⟩

end Tracepoint.Cli
