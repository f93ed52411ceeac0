/-
**Literals: values that are written down.**

A literal writes a value.  A list literal makes a new list each time it is read; it may carry a
name, by which later literals, and its own items, refer to the same list.  Reading a literal
yields a value together with the lists that have to be made for it.

Main definitions:

* `Tracepoint.Scenario.Literal` — the literals;
* `Tracepoint.Scenario.Ledger` — the names so far, and the lists that have to be made;
* `Tracepoint.Scenario.Literal.read` — the value of a literal.
-/

import Tracepoint.Heap

set_option relaxedAutoImplicit false
set_option autoImplicit false

namespace Tracepoint.Scenario

/-- A value that is written down. -/
inductive Literal where
  | null
  | bool (b : Bool)
  | int (n : Int64)
  | str (s : String)
  | tuple (items : List Literal)
  /-- A new list, which may be given a name. -/
  | list (name : Option String) (items : List Literal)
  | named (name : String)
  | function (index : Nat)
  | native (f : Native)
  | exception (e : Exception)
  deriving Inhabited

/-- What a literal refers to and does not find. -/
inductive Misread where
  | unknownName (name : String)
  | unknownCode (index : Nat)
  deriving DecidableEq

/-- The names given so far, each once, the latest first. -/
abbrev Names := List (String × Value)

def Names.define (names : Names) (name : String) (v : Value) : Names :=
  (name, v) :: names.filter fun row => row.1 != name

/-- What reading literals leads to. -/
structure Ledger where
  /-- The address of the first list that has to be made. -/
  base : Nat
  /-- The items of the lists that have to be made, at consecutive addresses. -/
  lists : Array (Array Value)
  names : Names

def Ledger.start (h : Heap) (names : Names) : Ledger := ⟨h.lists.size, #[], names⟩

def Ledger.define (l : Ledger) (name : Option String) (v : Value) : Ledger :=
  match name with
  | none => l
  | some name => { l with names := l.names.define name v }

/-- Reading, which may fail. -/
abbrev Reading := StateT Ledger (Except Misread)

def functionOf (codes : Array (Option Nat)) (index : Nat) : Except Misread Nat :=
  match codes[index]? with
  | some (some address) => .ok address
  | _ => .error (.unknownCode index)

mutual

/-- The value of a literal.  The code units of the scenario are given by their addresses. -/
def Literal.read (codes : Array (Option Nat)) : Literal → Reading Value
  | .null => pure .null
  | .bool b => pure (.bool b)
  | .int n => pure (.int n)
  | .str s => pure (.str s)
  | .tuple items => return .tuple (← Literal.readItems codes items)
  | .list name items => do
      let ledger ← get
      let index := ledger.lists.size
      let v := Value.list (ledger.base + index)
      set ({ ledger with lists := ledger.lists.push #[] }.define name v)
      let items ← Literal.readItems codes items
      modify fun l => { l with lists := l.lists.setIfInBounds index items.toArray }
      return v
  | .named name => do
      match (← get).names.lookup name with
      | some v => pure v
      | none => throw (.unknownName name)
  | .function index => return .function (← (functionOf codes index : Except Misread Nat))
  | .native f => pure (.native f)
  | .exception e => pure (.exception e)

def Literal.readItems (codes : Array (Option Nat)) : List Literal → Reading (List Value)
  | [] => pure []
  | l :: ls => return (← Literal.read codes l) :: (← Literal.readItems codes ls)

end

end Tracepoint.Scenario
