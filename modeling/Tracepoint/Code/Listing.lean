/-
**Listings of instructions.**

An instruction is listed by its name, with its operand in parentheses if it has one.

Main definitions:

* `Tracepoint.Instruction.text` — the listed form of an instruction.
-/

import Tracepoint.Code.Draft

set_option relaxedAutoImplicit false
set_option autoImplicit false

namespace Tracepoint

/-- The listed form of an operator. -/
def BinaryOperator.text : BinaryOperator → String
  | add => "Add"
  | sub => "Sub"
  | mul => "Mul"
  | floorDiv => "FloorDiv"
  | lt => "Lt"
  | eq => "Eq"

/-- The listed form of an instruction. -/
def Instruction.text : Instruction → String
  | nop => "Nop"
  | loadConst k => "LoadConst(" ++ toString k ++ ")"
  | loadLocal slot => "LoadLocal(" ++ toString slot ++ ")"
  | storeLocal slot => "StoreLocal(" ++ toString slot ++ ")"
  | pop => "PopTop"
  | buildList n => "BuildList(" ++ toString n ++ ")"
  | binary op => "Binary(" ++ op.text ++ ")"
  | call n => "Call(" ++ toString n ++ ")"
  | ret => "Return"
  | yield => "Yield"
  | raise => "Raise"
  | jump l => "Jump(" ++ l.text ++ ")"
  | popJumpIfFalse l => "PopJumpIfFalse(" ++ l.text ++ ")"
  | getIter => "GetIter"
  | forIter l => "ForIter(" ++ l.text ++ ")"
  | matchException kind => "MatchException(" ++ kind.name ++ ")"

end Tracepoint
