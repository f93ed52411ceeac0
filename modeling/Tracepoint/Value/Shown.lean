/-
**Values as they are shown.**

A text is shown between single quotes with nothing escaped, an exception with its quoted message,
a tuple in parentheses, with a comma behind a single item, and a list in brackets.  A list that is
met again inside itself is shown as `[...]`.

Main definitions:

* `Tracepoint.Value.render` — a value as it is shown, given how lists are shown;
* `Tracepoint.Heap.renderList` — a list as it is shown, with the open ones given;
* `Tracepoint.Heap.shown` — **a value as it is shown**, with no list open;
* `Tracepoint.Heap.isTruthy` — whether a value counts as true;
* `Tracepoint.Heap.callableName?` — the name of what can be called.
-/

import Tracepoint.Heap

set_option relaxedAutoImplicit false
set_option autoImplicit false

namespace Tracepoint

namespace Heap

def functionName (h : Heap) (a : Nat) : String :=
  (h.code? a).elim "" Code.name

def generatorName (h : Heap) (a : Nat) : String :=
  (h.generators[a]?).elim "" Generator.name

/-- The name of a value that can be called. -/
def callableName? (h : Heap) : Value → Option String
  | .function a => some (h.functionName a)
  | .native f => some f.name
  | _ => none

/-- Whether a value counts as true: it is neither absent nor false nor zero nor empty. -/
def isTruthy (h : Heap) : Value → Bool
  | .null => false
  | .bool b => b
  | .int n => n != 0
  | .str s => s != ""
  | .tuple items => !items.isEmpty
  | .list a => !(h.items a).isEmpty
  | _ => true

end Heap

/-- The comma behind the only item of a tuple. -/
def Value.trailingComma {α : Type} : List α → String
  | [_] => ","
  | _ => ""

mutual

/-- A value as it is shown, given how lists are shown. -/
def Value.render (h : Heap) (lists : Nat → String) : Value → String
  | .null => "None"
  | .bool true => "True"
  | .bool false => "False"
  | .int n => toString n.toInt
  | .str s => "'" ++ s ++ "'"
  | .tuple items =>
      "(" ++ ", ".intercalate (Value.renderItems h lists items) ++ Value.trailingComma items ++ ")"
  | .list a => lists a
  | .function a => "<function " ++ h.functionName a ++ ">"
  | .native f => "<built-in function " ++ f.name ++ ">"
  | .exception e => e.shown
  | .iterator _ => "<iterator>"
  | .generator a => "<generator object " ++ h.generatorName a ++ ">"

def Value.renderItems (h : Heap) (lists : Nat → String) : List Value → List String
  | [] => []
  | v :: vs => Value.render h lists v :: Value.renderItems h lists vs

end

namespace Value

section Rendering

variable (h : Heap) (lists : Nat → String)

theorem render_bool (b : Bool) : (Value.bool b).render h lists = if b then "True" else "False" := by
  cases b <;> rfl

theorem render_tuple (items : List Value) : (Value.tuple items).render h lists =
    "(" ++ ", ".intercalate (renderItems h lists items) ++ trailingComma items ++ ")" := rfl

theorem render_function (a : Nat) :
    (Value.function a).render h lists = "<function " ++ h.functionName a ++ ">" := rfl

theorem render_generator (a : Nat) :
    (Value.generator a).render h lists = "<generator object " ++ h.generatorName a ++ ">" := rfl

theorem renderItems_cons (v : Value) (vs : List Value) :
    renderItems h lists (v :: vs) = v.render h lists :: renderItems h lists vs := rfl

theorem renderItems_eq_map (vs : List Value) :
    renderItems h lists vs = vs.map (Value.render h lists) := by
  induction vs with
  | nil => rfl
  | cons v vs ih => rw [renderItems_cons, ih, List.map_cons]

end Rendering

end Value

namespace Heap

/-- The list at an address as it is shown while the lists of `opened` are open, looking at most
`levels` lists deep. -/
def renderList (h : Heap) : Nat → List Nat → Nat → String
  | 0, _, _ => "[...]"
  | levels + 1, opened, a =>
      if opened.contains a then "[...]"
      else
        "[" ++ ", ".intercalate
          ((h.items a).toList.map (Value.render h (h.renderList levels (a :: opened)))) ++ "]"

/-- **A value as it is shown.** -/
def shown (h : Heap) (v : Value) : String :=
  v.render h (h.renderList (h.lists.size + 1) [])

/-- The argument of a call as it is shown; a call may have none. -/
def shownArgument (h : Heap) : Option Value → String
  | none => "MISSING"
  | some v => h.shown v

/-- The name of what is called, or how it is shown if it has none. -/
def shownCallable (h : Heap) (v : Value) : String :=
  (h.callableName? v).getD (h.shown v)

end Heap

end Tracepoint
