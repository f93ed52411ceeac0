/-
**Code.**

A code unit is the body of a function: its instructions, the source lines they belong to, its
constants and its exception handlers.  The instruction with index `i` stands at the offset `2 * i`,
which is what events report.

Main definitions:

* `Tracepoint.Instruction` — the instructions;
* `Tracepoint.Handler` — a range of instructions with the place where exceptions go;
* `Tracepoint.Code` — the code units, with their look-ups;
* `Tracepoint.offsetOf` — the offset of an instruction.

A line *starts* at the first instruction after the line was announced; a later instruction of the
same line does not start it again.
-/

import Tracepoint.Value

set_option relaxedAutoImplicit false
set_option autoImplicit false

namespace Tracepoint

/-! ### Instructions -/

/-- A jump target by number. -/
structure Label where
  number : Nat
  deriving DecidableEq, Inhabited

/-- An operator with two operands. -/
inductive BinaryOperator where
  | add
  | sub
  | mul
  | floorDiv
  | lt
  | eq
  deriving DecidableEq, Inhabited

/-- An instruction. -/
inductive Instruction where
  | nop
  | loadConst (index : Nat)
  | loadLocal (slot : Nat)
  | storeLocal (slot : Nat)
  | pop
  /-- Pop `n` values into a new list. -/
  | buildList (n : Nat)
  | binary (op : BinaryOperator)
  /-- Pop `n` arguments, then what is called, and push the result. -/
  | call (n : Nat)
  | ret
  | yield
  | raise
  | jump (target : Label)
  | popJumpIfFalse (target : Label)
  | getIter
  /-- Push the next item of the iterator, or pop the iterator and jump when it has none. -/
  | forIter (exit : Label)
  /-- Push whether the exception below belongs to a class. -/
  | matchException (kind : ExceptionClass)
  deriving DecidableEq, Inhabited

namespace Instruction

def target? : Instruction → Option Label
  | jump l | popJumpIfFalse l | forIter l => some l
  | _ => none

/-- Whether control never goes on to the next instruction. -/
def isTerminator : Instruction → Bool
  | ret | raise | jump _ => true
  | _ => false

/-- The local that an instruction names. -/
def slot? : Instruction → Option Nat
  | loadLocal slot | storeLocal slot => some slot
  | _ => none

end Instruction

/-! ### Code units -/

/-- One instruction with its place in the source. -/
structure Row where
  instruction : Instruction
  line : Option Nat
  startsLine : Bool
  deriving DecidableEq, Inhabited

/-- The instructions from `start` up to `stop`, without `stop`, send their exceptions to `target`,
where the value stack is cut to `depth`. -/
structure Handler where
  start : Nat
  stop : Nat
  target : Nat
  depth : Nat
  deriving DecidableEq, Inhabited

def Handler.covers (h : Handler) (i : Nat) : Bool :=
  h.start ≤ i && i < h.stop

/-- A code unit. -/
structure Code where
  name : String
  firstLine : Nat
  /-- The number of parameters, which are the first locals. -/
  params : Nat
  locals : Nat
  isGenerator : Bool
  rows : Array Row
  labels : Array Nat
  /-- The handlers, in the order of registration. -/
  handlers : List Handler
  consts : Array Value
  deriving Inhabited

namespace Code

def size (c : Code) : Nat := c.rows.size

def instruction? (c : Code) (i : Nat) : Option Instruction :=
  c.rows[i]?.map Row.instruction

def line? (c : Code) (i : Nat) : Option Nat :=
  c.rows[i]?.bind Row.line

def startsLine (c : Code) (i : Nat) : Bool :=
  (c.rows[i]?.map Row.startsLine).getD false

def target? (c : Code) (l : Label) : Option Nat :=
  c.labels[l.number]?

def const? (c : Code) (k : Nat) : Option Value :=
  c.consts[k]?

/-- The handler for the exceptions of an instruction: of those that cover it, the one that was
registered last. -/
def handler? (c : Code) (i : Nat) : Option Handler :=
  c.handlers.reverse.find? fun h => h.covers i

end Code

/-! ### Offsets -/

/-- The greatest number of 32 bits.  Offsets, and indices in the pool of constants, that would be
greater stay at it. -/
def lastWord : Nat := 0xffffffff

/-- The offset of an instruction. -/
def offsetOf (i : Nat) : Nat :=
  min (2 * i) lastWord

def Code.lineAt? (c : Code) (offset : Nat) : Option Nat :=
  c.line? (offset / 2)

/-- Within a code unit no offset is cut off. -/
theorem offsetOf_eq {i : Nat} (h : i < 0x80000000) : offsetOf i = 2 * i := by
  unfold offsetOf lastWord
  omega

end Tracepoint
