/-
**Values.**

The values of the machine.  Scalars, texts, tuples and exceptions are values by content.  Lists,
iterators and generators can change and be shared, so that a value holds their address in the
heap; a function is the address of its code.

Main definitions:

* `Tracepoint.Native` — the functions that are not made of instructions;
* `Tracepoint.Value` — the values;
* `Tracepoint.Value.typeName` — the name of a value's type.
-/

import Tracepoint.Exception

set_option relaxedAutoImplicit false
set_option autoImplicit false

namespace Tracepoint

/-- A function that is not made of instructions. -/
inductive Native where
  | len
  /-- The nominal size in bytes. -/
  | sizeof
  | append
  /-- An iterator over consecutive integers. -/
  | range
  deriving DecidableEq, Inhabited

namespace Native

def all : List Native := [len, sizeof, append, range]

def name : Native → String
  | len => "len"
  | sizeof => "sizeof"
  | append => "append"
  | range => "range"

def ofName? (name : String) : Option Native :=
  all.find? fun f => f.name = name

end Native

/-- A value. -/
inductive Value where
  | null
  | bool (b : Bool)
  | int (n : Int64)
  | str (s : String)
  | tuple (items : List Value)
  | list (address : Nat)
  /-- The function whose code stands at an address. -/
  | function (address : Nat)
  | native (f : Native)
  | exception (e : Exception)
  | iterator (address : Nat)
  | generator (address : Nat)
  deriving Inhabited

namespace Value

/-- The name of the type of a value; an exception has its class for a type. -/
def typeName : Value → String
  | null => "NoneType"
  | bool _ => "bool"
  | int _ => "int"
  | str _ => "str"
  | tuple _ => "tuple"
  | list _ => "list"
  | function _ => "function"
  | native _ => "builtin_function_or_method"
  | exception e => e.kind.name
  | iterator _ => "iterator"
  | generator _ => "generator"

/-- Whether a call of the value runs instructions. -/
def isFunction : Value → Bool
  | function _ => true
  | _ => false

end Value

end Tracepoint
