/-
**Exceptions.**

An exception has a class and a message.  The classes form a tree under `ExceptionClass.exception`;
a handler for a class takes the exceptions of that class and of the classes below it.

Main definitions:

* `Tracepoint.ExceptionClass`, `Tracepoint.Exception` — the classes and the exceptions;
* `Tracepoint.ExceptionClass.base?`, `Tracepoint.ExceptionClass.isA` — the tree;
* `Tracepoint.Exception.text`, `Tracepoint.Exception.shown` — the two ways of writing an
  exception;
* the exceptions that the machine itself raises, each with its wording.
-/

import Tracepoint.Text.Quoted

set_option relaxedAutoImplicit false
set_option autoImplicit false

namespace Tracepoint

/-! ### Classes -/

/-- A class of exceptions. -/
inductive ExceptionClass where
  | exception
  | arithmeticError
  | zeroDivisionError
  | lookupError
  | keyError
  | indexError
  | typeError
  | valueError
  | stopIteration
  | recursionError
  | runtimeError
  deriving DecidableEq, Inhabited

namespace ExceptionClass

def all : List ExceptionClass :=
  [exception, arithmeticError, zeroDivisionError, lookupError, keyError, indexError, typeError,
    valueError, stopIteration, recursionError, runtimeError]

def name : ExceptionClass → String
  | exception => "Exception"
  | arithmeticError => "ArithmeticError"
  | zeroDivisionError => "ZeroDivisionError"
  | lookupError => "LookupError"
  | keyError => "KeyError"
  | indexError => "IndexError"
  | typeError => "TypeError"
  | valueError => "ValueError"
  | stopIteration => "StopIteration"
  | recursionError => "RecursionError"
  | runtimeError => "RuntimeError"

def ofName? (name : String) : Option ExceptionClass :=
  all.find? fun c => c.name = name

/-- The class directly above a class; the root has none. -/
def base? : ExceptionClass → Option ExceptionClass
  | exception => none
  | zeroDivisionError => some arithmeticError
  | keyError | indexError => some lookupError
  | recursionError => some runtimeError
  | _ => some exception

/-- A class and those above it, from the class to the root.  No class is more than two steps
below the root. -/
def lineage (c : ExceptionClass) : List ExceptionClass :=
  match c.base? with
  | none => [c]
  | some b => c :: b :: b.base?.toList

/-- Whether an exception of class `c` is taken by a handler for class `d`. -/
def isA (c d : ExceptionClass) : Bool :=
  c.lineage.contains d

/-- A class belongs to itself and to the classes its base belongs to, and to no others. -/
theorem isA_iff (c d : ExceptionClass) : c.isA d ↔ c = d ∨ ∃ b, c.base? = some b ∧ b.isA d := by
  cases c <;> cases d <;> decide

end ExceptionClass

/-! ### Exceptions -/

/-- An exception. -/
structure Exception where
  kind : ExceptionClass
  /-- Its message, which may be empty. -/
  message : String
  deriving DecidableEq, Inhabited

namespace Exception

/-- The class, and the message behind a colon unless it is empty. -/
def text (e : Exception) : String :=
  if e.message = "" then e.kind.name else e.kind.name ++ ": " ++ e.message

/-- The class and the quoted message, as the exception is shown among values. -/
def shown (e : Exception) : String :=
  e.kind.name ++ "(" ++ Text.quoted e.message ++ ")"

/-! ### The exceptions that the machine raises -/

def typeError (message : String) : Exception :=
  ⟨.typeError, message⟩

def runtimeError (message : String) : Exception :=
  ⟨.runtimeError, message⟩

def overflow : Exception :=
  ⟨.valueError, "integer overflow"⟩

def divisionByZero : Exception :=
  ⟨.zeroDivisionError, "integer division or modulo by zero"⟩

def unsupportedOperands (symbol left right : String) : Exception :=
  typeError ("unsupported operand type(s) for " ++ symbol ++ ": '" ++ left ++ "' and '" ++ right ++
    "'")

def notCallable (typeName : String) : Exception :=
  typeError ("'" ++ typeName ++ "' object is not callable")

def notIterable (typeName : String) : Exception :=
  typeError ("'" ++ typeName ++ "' object is not iterable")

def notIterator (typeName : String) : Exception :=
  typeError ("'" ++ typeName ++ "' object is not an iterator")

def notRaisable (typeName : String) : Exception :=
  typeError ("exceptions must derive from BaseException, not '" ++ typeName ++ "'")

def notException (typeName : String) : Exception :=
  typeError ("'" ++ typeName ++ "' is not an exception")

def wrongArguments (name : String) (params given : Nat) : Exception :=
  typeError (name ++ "() takes " ++ toString params ++ " positional argument(s) but " ++
    toString given ++ " were given")

def wrongArity (name : String) (expected given : Nat) : Exception :=
  typeError (name ++ "() takes exactly " ++ toString expected ++ " argument(s) (" ++
    toString given ++ " given)")

def noLength (typeName : String) : Exception :=
  typeError ("object of type '" ++ typeName ++ "' has no len()")

def notAppendable (typeName : String) : Exception :=
  typeError ("append() expects a list, not '" ++ typeName ++ "'")

def rangeBounds : Exception :=
  typeError "range() arguments must be integers"

def rangeArity (given : Nat) : Exception :=
  typeError ("range expected 1 or 2 arguments, got " ++ toString given)

def recursionLimit : Exception :=
  ⟨.recursionError, "maximum recursion depth exceeded"⟩

def generatorRunning : Exception :=
  ⟨.valueError, "generator already executing"⟩

def stackUnderflow : Exception :=
  runtimeError "value stack underflow"

def outOfRange : Exception :=
  runtimeError "instruction pointer out of range"

def unknownLabel : Exception :=
  runtimeError "jump to an unknown label"

def noSuchConstant : Exception :=
  runtimeError "no such constant"

def noSuchLocal : Exception :=
  runtimeError "no such local"

def strayYield : Exception :=
  runtimeError "yield from a non-generator frame"

end Exception

end Tracepoint
