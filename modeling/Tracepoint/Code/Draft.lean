/-
**Drafts: code units that are being written.**

A code unit is written as a list of directives: announce a line, make a constant, a label or a
handler, bind a label, emit an instruction.  A draft is what has been written so far.  Finishing a
draft checks that control can neither leave the code nor meet a label that was never bound, and
that no handler covers the place it sends exceptions to.

Main definitions:

* `Tracepoint.BuildError` — why a draft is refused, with its wording;
* `Tracepoint.Directive`, `Tracepoint.Draft`, `Tracepoint.Draft.perform` — writing;
* `Tracepoint.Draft.finish` — the checks, and the finished code unit;
* `Tracepoint.Source`, `Tracepoint.Source.build` — a whole list of directives at once.
-/

import Tracepoint.Code

set_option relaxedAutoImplicit false
set_option autoImplicit false

namespace Tracepoint

/-! ### Refusals -/

/-- Why a draft is refused. -/
inductive BuildFault where
  | empty
  /-- There are more instructions than offsets. -/
  | tooLarge (size : Nat)
  | unboundLabel (l : Label)
  | foreignLabel (l : Label)
  | reboundLabel (l : Label)
  /-- Control can run past the last instruction. -/
  | missingTerminator
  | yieldOutsideGenerator
  /-- A handler covers nothing, or its own target, or leads out of the code. -/
  | badHandler (start stop : Nat)
  deriving DecidableEq

/-- The refusal of a draft, by the name of its function. -/
structure BuildError where
  name : String
  fault : BuildFault
  deriving DecidableEq

def Label.text (l : Label) : String :=
  "Label(" ++ toString l.number ++ ")"

def BuildFault.text : BuildFault → String
  | empty => " has no instructions"
  | tooLarge size => " is too large (" ++ toString size ++ " instructions)"
  | unboundLabel l => ": label " ++ l.text ++ " is never bound"
  | foreignLabel l => ": label " ++ l.text ++ " was made by another builder"
  | reboundLabel l => ": label " ++ l.text ++ " is bound twice"
  | missingTerminator => ": execution can run past the last instruction"
  | yieldOutsideGenerator => ": yield outside a generator"
  | badHandler start stop =>
      ": handler range " ++ toString start ++ ".." ++ toString stop ++
        " is empty or covers its own target"

def BuildError.message (e : BuildError) : String :=
  "code '" ++ e.name ++ "'" ++ e.fault.text

/-! ### Writing -/

/-- A handler whose places are labels. -/
structure LabelledHandler where
  start : Label
  stop : Label
  target : Label
  depth : Nat
  deriving DecidableEq, Inhabited

/-- One step of writing a code unit. -/
inductive Directive where
  /-- The function has another number of parameters. -/
  | params (n : Nat)
  /-- A call of the function makes a generator. -/
  | generator
  /-- The following instructions belong to a line, and the next one starts it. -/
  | line (n : Nat)
  | constant (v : Value)
  /-- Make a constant and emit the instruction that pushes it. -/
  | load (v : Value)
  | label
  | bind (l : Label)
  | emit (i : Instruction)
  | handler (h : LabelledHandler)
  deriving Inhabited

/-- A code unit that is being written. -/
structure Draft where
  name : String
  firstLine : Nat
  params : Nat
  /-- The largest number of parameters so far, each of which has a local. -/
  reserved : Nat
  isGenerator : Bool
  rows : Array Row
  /-- The line announced last. -/
  currentLine : Option Nat
  /-- Whether no instruction was emitted since. -/
  lineIsNew : Bool
  labels : Array (Option Nat)
  handlers : List LabelledHandler
  consts : Array Value
  deriving Inhabited

namespace Draft

def start (name : String) (firstLine params : Nat) (isGenerator : Bool) : Draft :=
  ⟨name, firstLine, params, params, isGenerator, #[], none, false, #[], [], #[]⟩

def refuse {α : Type} (d : Draft) (fault : BuildFault) : Except BuildError α :=
  .error ⟨d.name, fault⟩

def setParams (d : Draft) (n : Nat) : Draft :=
  { d with params := n, reserved := max d.reserved n }

def addConst (d : Draft) (v : Value) : Draft :=
  { d with consts := d.consts.push v }

def emit (d : Draft) (i : Instruction) : Draft :=
  { d with
    rows := d.rows.push ⟨i, d.currentLine, d.lineIsNew && d.currentLine.isSome⟩
    lineIsNew := false }

def bind (d : Draft) (l : Label) : Except BuildError Draft :=
  match d.labels[l.number]? with
  | none => d.refuse (.foreignLabel l)
  | some (some _) => d.refuse (.reboundLabel l)
  | some none => .ok { d with labels := d.labels.setIfInBounds l.number (some d.rows.size) }

/-- The draft after one more directive. -/
def perform (d : Draft) : Directive → Except BuildError Draft
  | .params n => .ok (d.setParams n)
  | .generator => .ok { d with isGenerator := true }
  | .line n => .ok { d with currentLine := some n, lineIsNew := true }
  | .constant v => .ok (d.addConst v)
  | .load v =>
      let index := min d.consts.size lastWord
      .ok ((d.addConst v).emit (.loadConst index))
  | .label => .ok { d with labels := d.labels.push none }
  | .bind l => d.bind l
  | .emit i => .ok (d.emit i)
  | .handler h => .ok { d with handlers := d.handlers ++ [h] }

/-! ### Finishing -/

def instructions (d : Draft) : List Instruction :=
  d.rows.toList.map Row.instruction

@[simp] theorem instructions_emit (d : Draft) (i : Instruction) :
    (d.emit i).instructions = d.instructions ++ [i] := by
  simp [instructions, emit]

@[simp] theorem instructions_addConst (d : Draft) (v : Value) :
    (d.addConst v).instructions = d.instructions := rfl

/-- The number of locals: enough for the parameters and for every local that is named. -/
def locals (d : Draft) : Nat :=
  d.instructions.foldl (fun n i => max n ((i.slot?.map (· + 1)).getD 0)) d.reserved

/-- The places of the labels, from the one with the given number on; every one has to be bound. -/
def boundLabels (d : Draft) : Nat → List (Option Nat) → Except BuildError (List Nat)
  | _, [] => .ok []
  | n, none :: _ => d.refuse (.unboundLabel ⟨n⟩)
  | n, some i :: rest => return i :: (← d.boundLabels (n + 1) rest)

def resolve (d : Draft) (labels : Array Nat) (l : Label) : Except BuildError Nat :=
  match labels[l.number]? with
  | some i => .ok i
  | none => d.refuse (.foreignLabel l)

def jumpTargets (d : Draft) (labels : Array Nat) : Except BuildError (List Nat) :=
  (d.instructions.filterMap Instruction.target?).mapM (d.resolve labels)

/-- A handler with its labels resolved.  It covers something, but neither its target nor more than
the code. -/
def resolveHandler (d : Draft) (labels : Array Nat) (h : LabelledHandler) :
    Except BuildError Handler := do
  let start ← d.resolve labels h.start
  let stop ← d.resolve labels h.stop
  let target ← d.resolve labels h.target
  let handler : Handler := ⟨start, stop, target, h.depth⟩
  if start < stop ∧ ¬ handler.covers target ∧ target < d.rows.size then return handler
  else d.refuse (.badHandler start stop)

/-- The largest number of instructions whose offsets fit in 32 bits. -/
def maxSize : Nat := 0x7fffffff

/-- The finished code unit, or the first fault in this order: the number of instructions, the
labels, the jumps, the end of the code, yields, handlers. -/
def finish (d : Draft) : Except BuildError Code := do
  let some last := d.instructions.getLast? | d.refuse .empty
  if d.rows.size > maxSize then d.refuse (.tooLarge d.rows.size)
  let labels := (← d.boundLabels 0 d.labels.toList).toArray
  let targets ← d.jumpTargets labels
  if !last.isTerminator || targets.any (d.rows.size ≤ ·) then d.refuse .missingTerminator
  if !d.isGenerator && d.instructions.contains .yield then d.refuse .yieldOutsideGenerator
  let handlers ← d.handlers.mapM (d.resolveHandler labels)
  return {
    name := d.name, firstLine := d.firstLine, params := d.params, locals := d.locals,
    isGenerator := d.isGenerator, rows := d.rows, labels, handlers, consts := d.consts }

end Draft

/-! ### Whole sources -/

/-- A code unit as a list of directives. -/
structure Source where
  name : String
  firstLine : Nat
  params : Nat := 0
  isGenerator : Bool := false
  directives : List Directive
  deriving Inhabited

namespace Source

def draft (s : Source) : Draft :=
  Draft.start s.name s.firstLine s.params s.isGenerator

def write (s : Source) : Except BuildError Draft :=
  s.directives.foldlM Draft.perform s.draft

def build (s : Source) : Except BuildError Code := do
  (← s.write).finish

end Source

end Tracepoint
