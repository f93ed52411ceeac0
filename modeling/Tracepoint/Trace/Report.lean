/-
**Traces: samples under a tool that writes down what it is told.**

A trace takes a slot for a tool with one callback for each event of interest, arms the events,
runs a sample as often as it is asked to, and gives the slot back.  The callbacks write a line for
each report.

Main definitions:

* `Tracepoint.Trace.line` — the line for a report;
* `Tracepoint.Trace.printer` — what the callbacks do;
* `Tracepoint.Trace.Report`, `Tracepoint.Trace.Error` — what a trace comes to;
* `Tracepoint.Trace.run` — **a trace**.
-/

import Tracepoint.Machine
import Tracepoint.Sample
import Tracepoint.Text.Column
import Tracepoint.Trace.Options

set_option relaxedAutoImplicit false
set_option autoImplicit false

namespace Tracepoint.Trace

/-! ### Lines -/

/-- What a line says beyond the event and its place. -/
def detailText (h : Heap) : Detail → Option String
  | .code none => none
  | .code (some v) => some ("-> " ++ h.shown v)
  | .call callable argument =>
      some (h.shownCallable callable ++ " " ++ h.shownArgument argument)
  | .line n => some ("line " ++ toString n)
  | .instruction => none
  | .exception e => some (h.shown e)
  | .branch target => some ("-> " ++ toString target)

/-- The line for a report: the event, its place and the detail. -/
def line (h : Heap) (o : Occurrence) : String :=
  Text.padRight 17 o.event.name ++ " " ++ o.payload.unit.name ++ "@" ++
    toString o.payload.offset ++ ((detailText h o.payload.detail).elim "" (" " ++ ·))

/-! ### The tool -/

/-- What a trace writes down. -/
structure Memory where
  lines : Array String
  outcomes : Array (Except Exception Value)
  deriving Inhabited

def callback (e : Event) : Callback := ⟨e.index, e.shape⟩

def eventOf (c : Callback) : Event := (Event.all[c.id]?).getD .frameStart

/-- What the callbacks do: write a line and answer with the given action. -/
def printer (action : Action) (c : Callback) (p : Payload) : Script Memory :=
  .inspect fun w =>
    let text := line w.heap ⟨eventOf c, p⟩
    .remember (fun m => { m with lines := m.lines.push text }) (.answer (.ok action))

/-- What makes a tool listen to the events of a trace. -/
def arming (o : Options) (entry : CodeId) : List Operation :=
  .claim o.tool "vigil trace" ::
    (o.events.delivered.toList.map fun e => .register o.tool e (some (callback e))) ++
    [if o.onlyEntry then .setLocal o.tool entry o.events else .setGlobal o.tool o.events]

/-- The registry after operations, or the reason why one of them is refused. -/
def operateAll (r : Registry) (ops : List Operation) : Except MonitorError Registry :=
  ops.foldlM (fun r op => let (r, reply) := r.apply op; reply.map fun _ => r) r

/-! ### Runs -/

/-- Calls the entry function once and writes down what that comes to. -/
def callOnce (o : Options) (entry : Value) : Script Memory :=
  .call o.maxDepth entry [] fun r =>
    .remember (fun m => { m with outcomes := m.outcomes.push r }) .done

/-- The machine in which the tool of a trace listens. -/
def machine (o : Options) : Machine Memory :=
  .of (printer (if o.disable then .disable else .proceed))

/-- The world after some more runs.  Before each of them but the first, what was disabled is
reported again if the options ask for it. -/
def runs (o : Options) (entry : Value) : Nat → World Memory → Option (World Memory)
  | 0, w => some w
  | n + 1, w => do
      let registry := if o.restart && w.memory.outcomes.size != 0 then w.registry.restart
        else w.registry
      let w ← (machine o).perform { w with registry } (callOnce o entry)
      runs o entry n w

/-! ### Traces -/

/-- What a trace comes to. -/
structure Report where
  lines : List String
  outcomes : List (Except Exception Value)
  heap : Heap

/-- Why there is no trace. -/
inductive Error where
  | unknownSample (name : String)
  | build (e : BuildError)
  | monitor (e : MonitorError)
  | endless (name : String)

def Error.message : Error → String
  | unknownSample name => "unknown sample '" ++ name ++ "' (run `vigil samples` to list them)"
  | build e => e.message
  | monitor e => e.message
  | endless name => "sample '" ++ name ++ "' does not come to an end"

def codeOf : Value → CodeId
  | .function a => .loaded a
  | _ => .foreign 0

/-- **The trace of a sample.** -/
def run (name : String) (o : Options) : Except Error Report := do
  let some sample := Sample.find? name | throw (.unknownSample name)
  let (entry, heap) ← (sample.load .empty).mapError .build
  let registry ← (operateAll .empty (arming o (codeOf entry))).mapError .monitor
  let some w := runs o entry o.repetitions ⟨registry, heap, default⟩ | throw (.endless name)
  let _ ← (operateAll w.registry [.free o.tool]).mapError .monitor
  return ⟨w.memory.lines.toList, w.memory.outcomes.toList, w.heap⟩

end Tracepoint.Trace
