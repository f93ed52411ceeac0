/-
**Code units that are written down.**

A scenario has code units: samples, functions that are constants of earlier units, and units
written as steps.  The steps of a unit are carried out one by one; the literals of a step are read
when its turn comes.

Main definitions:

* `Tracepoint.Scenario.CodeSpec` — a code unit as it is written;
* `Tracepoint.Scenario.Shelf` — the code units so far;
* `Tracepoint.Scenario.Shelf.add` — one more code unit, or why it is refused.
-/

import Tracepoint.Sample
import Tracepoint.Scenario.Literal

set_option relaxedAutoImplicit false
set_option autoImplicit false

namespace Tracepoint.Scenario

/-- One step of a code unit. -/
inductive Step where
  | plain (d : Directive)
  | constant (v : Literal)
  | load (v : Literal)

/-- A code unit as it is written. -/
inductive CodeSpec where
  | sample (name : String)
  /-- The function that is a constant of an earlier unit. -/
  | constantOf (index constant : Nat)
  /-- A unit with a number of labels and its steps. -/
  | steps (name : String) (firstLine params : Nat) (isGenerator : Bool) (labels : Nat)
      (steps : List Step)

/-- Why a code unit is refused. -/
inductive CodeError where
  | unknownSample (name : String)
  | build (e : BuildError) (step : Option Nat)
  | misread (e : Misread)

/-- The code units so far, with the heap that they are in. -/
structure Shelf where
  heap : Heap
  names : Names
  codes : Array (Option Nat)

namespace Shelf

def empty : Shelf := ⟨.empty, [], #[]⟩

def directive (codes : Array (Option Nat)) : Step → Reading Directive
  | .plain d => pure d
  | .constant v => return .constant (← v.read codes)
  | .load v => return .load (← v.read codes)

/-- The draft after some steps and what reading them leads to, or the first refusal with the
number of the refused step. -/
def write (codes : Array (Option Nat)) (ledger : Ledger) (d : Draft) (done : Nat) :
    List Step → Ledger × Except CodeError Draft
  | [] => (ledger, .ok d)
  | step :: rest =>
      match (directive codes step).run ledger with
      | .error e => (ledger, .error (.misread e))
      | .ok (directive, ledger) =>
          match d.perform directive with
          | .error e => (ledger, .error (.build e (some done)))
          | .ok d => write codes ledger d (done + 1) rest

/-- The shelf with the lists and names that reading has led to. -/
def commit (s : Shelf) (ledger : Ledger) : Shelf :=
  { s with heap := s.heap.addLists ledger.lists, names := ledger.names }

def load (s : Shelf) (c : Code) : Shelf × Nat :=
  let address := s.heap.codes.size
  ({ s with heap := (s.heap.addCode c).1 }, address)

def build (s : Shelf) : CodeSpec → Shelf × Except CodeError Nat
  | .sample name =>
      match Sample.find? name with
      | none => (s, .error (.unknownSample name))
      | some sample =>
          match sample.load s.heap with
          | .ok (.function address, heap) => ({ s with heap }, .ok address)
          | .ok (_, heap) => ({ s with heap }, .error (.unknownSample name))
          | .error e => (s, .error (.build e none))
  | .constantOf index k =>
      match functionOf s.codes index with
      | .error e => (s, .error (.misread e))
      | .ok address =>
          match (s.heap.code? address).bind fun c => c.const? k with
          | some (.function address) => (s, .ok address)
          | _ => (s, .error (.misread (.unknownCode index)))
  | .steps name firstLine params isGenerator labels steps =>
      let draft := { Draft.start name firstLine params isGenerator with
        labels := Array.replicate labels none }
      match write s.codes (.start s.heap s.names) draft 0 steps with
      | (ledger, .error e) => (s.commit ledger, .error e)
      | (ledger, .ok draft) =>
          let s := s.commit ledger
          match draft.finish with
          | .error e => (s, .error (.build e none))
          | .ok code => let (s, address) := s.load code; (s, .ok address)

/-- The shelf with one more code unit, which has its place also if it is refused, and the code. -/
def add (s : Shelf) (spec : CodeSpec) : Shelf × Except CodeError Code :=
  match s.build spec with
  | (s, .error e) => ({ s with codes := s.codes.push none }, .error e)
  | (s, .ok address) =>
      ({ s with codes := s.codes.push (some address) },
        .ok ((s.heap.code? address).getD default))

/-- The shelf with some more code units, and what each of them came to. -/
def addAll (s : Shelf) : List CodeSpec → Shelf × List (Except CodeError Code)
  | [] => (s, [])
  | spec :: rest =>
      let (s, r) := s.add spec
      let (s, rs) := s.addAll rest
      (s, r :: rs)

end Shelf

end Tracepoint.Scenario
