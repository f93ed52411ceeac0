/-
**Sessions.**

A session loads its code units and carries out its requests one by one.  After each request it
tells what the request came to, what the registry looks like and what the callbacks wrote
meanwhile.

Main definitions:

* `Tracepoint.Scenario.Session`, `Tracepoint.Scenario.Account` — a session and what it comes to;
* `Tracepoint.Scenario.Session.run` — **a session is carried out**;
* `Tracepoint.Scenario.callAlone` — a call that nobody listens to.
-/

import Tracepoint.Machine
import Tracepoint.Scenario.Behaviour
import Tracepoint.Scenario.CodeSpec

set_option relaxedAutoImplicit false
set_option autoImplicit false

namespace Tracepoint.Scenario

structure Session where
  maxDepth : Nat
  codes : List CodeSpec
  requests : List Request

/-- What is told after a request. -/
structure StepAccount where
  reply : Reply
  version : Nat
  disabled : Nat
  armed : EventSet
  log : List Entry

/-- What a session comes to. -/
structure Account where
  codes : List (Except CodeError Code)
  maxDepth : Nat
  steps : List StepAccount

def machine (setting : Setting) : Machine Memory := .of (behave setting)

/-- The account of the latest request, and the world for the next one. -/
def settle (w : World Memory) : StepAccount × World Memory :=
  (⟨w.memory.reply, w.registry.version, w.registry.disabledCount,
      EventSet.ofList (Event.all.filter w.registry.isArmed), w.memory.log.toList⟩,
    { w with memory := { w.memory with log := #[], reply := .done } })

/-- Carries out the requests of a session.  A request that does not come to an end ends the
session. -/
def carryOutAll (setting : Setting) (w : World Memory) : List Request → List StepAccount
  | [] => []
  | request :: rest =>
      match (machine setting).perform w
          (request.script setting fun reply =>
            .remember (fun m => { m with reply }) .done) with
      | none => []
      | some w =>
          let (account, w) := settle w
          account :: carryOutAll setting w rest

/-- **A session is carried out.** -/
def Session.run (s : Session) : Account :=
  let (shelf, codes) := Shelf.empty.addAll s.codes
  let setting : Setting := ⟨shelf.codes, s.maxDepth⟩
  let world : World Memory := ⟨.empty, shelf.heap, ⟨#[], shelf.names, #[], .done⟩⟩
  ⟨codes, s.maxDepth, carryOutAll setting world s.requests⟩

/-! ### Calls that nobody listens to -/

/-- The machine without callbacks, which remembers the result of a call. -/
def quiet : Machine (Option (Except Exception Value)) := .of fun _ _ => .done

/-- The result of a call that nobody listens to, and the heap after it. -/
def callAlone (h : Heap) (callable : Value) (args : List Value) :
    Option (Except Exception Value × Heap) := do
  let w ← quiet.perform ⟨.empty, h, none⟩
    (.call 1000 callable args fun r => .remember (fun _ => some r) .done)
  return (← w.memory, w.heap)

/-- The function that applies an operator to its two arguments. -/
def binarySource (op : BinaryOperator) : Source where
  name := "binary"
  firstLine := 1
  params := 2
  directives := [.emit (.loadLocal 0), .emit (.loadLocal 1), .emit (.binary op), .emit .ret]

/-- The function that makes a list of the items of its argument. -/
def collectSource : Source where
  name := "collect"
  firstLine := 1
  params := 1
  directives := [.label, .label, .emit (.buildList 0), .emit (.storeLocal 1),
    .emit (.loadLocal 0), .emit .getIter, .bind ⟨0⟩, .emit (.forIter ⟨1⟩), .emit (.storeLocal 2),
    .load (.native .append), .emit (.loadLocal 1), .emit (.loadLocal 2), .emit (.call 2),
    .emit .pop, .emit (.jump ⟨0⟩), .bind ⟨1⟩, .emit (.loadLocal 1), .emit .ret]

/-- The result of a function that is written down, and the heap after it. -/
def callSource (h : Heap) (source : Source) (args : List Value) :
    Option (Except Exception Value × Heap) := do
  let (f, h) ← ((Loader.load source).run h).toOption
  callAlone h f args

/-- The values of literals, in a heap of their own. -/
def readAlone (literals : List Literal) : Except Misread (List Value × Heap) := do
  let (values, ledger) ← (Literal.readItems #[] literals).run (.start .empty [])
  return (values, Heap.empty.addLists ledger.lists)

end Tracepoint.Scenario
