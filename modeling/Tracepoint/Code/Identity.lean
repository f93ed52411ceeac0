/-
**Code units as tools see them.**

A tool is told in which code unit something happened.  The unit is either one that the machine
has loaded, known by its address, or a foreign one that the machine knows nothing of but its
number, its name and its first line.  No loaded unit is the same as a foreign one.

Main definitions:

* `Tracepoint.CodeId` — the identity of a code unit, with an order;
* `Tracepoint.CodeUnit` — a code unit with its name and its lines.
-/

import Std.Data.ExtTreeMap
import Tracepoint.Code

set_option relaxedAutoImplicit false
set_option autoImplicit false

namespace Tracepoint

/-- The identity of a code unit. -/
inductive CodeId where
  | loaded (address : Nat)
  | foreign (number : Nat)
  deriving DecidableEq, Inhabited

namespace CodeId

def isForeign : CodeId → Bool
  | loaded _ => false
  | foreign _ => true

def number : CodeId → Nat
  | loaded n | foreign n => n

/-- The number of a code unit behind a mark. -/
def text (c : CodeId) : String :=
  "code#" ++ toString c.number

/-- Code units of one kind with one number are the same. -/
theorem ext {c d : CodeId} (hk : c.isForeign = d.isForeign) (hn : c.number = d.number) :
    c = d := by
  cases c <;> cases d <;> simp_all [isForeign, number]

/-- Loaded code units come first, and units of one kind in the order of their numbers. -/
instance : Ord CodeId := ⟨compareLex (compareOn isForeign) (compareOn number)⟩

instance : Std.TransOrd CodeId :=
  inferInstanceAs (Std.TransCmp (compareLex (compareOn isForeign) (compareOn number)))

/-- Code units that are neither before nor behind each other are equal. -/
instance : Std.LawfulEqOrd CodeId where
  eq_of_compare {c d} h := by
    have hboth : compareLex (compareOn isForeign) (compareOn number) c d = .eq := h
    simp only [compareLex, compareOn, Ordering.then_eq_eq,
      Std.LawfulEqOrd.compare_eq_iff_eq] at hboth
    exact ext hboth.1 hboth.2

end CodeId

/-- A code unit as tools see it. -/
inductive CodeUnit where
  /-- The code at an address. -/
  | loaded (address : Nat) (code : Code)
  /-- A unit outside the machine, all of whose instructions are on its first line. -/
  | foreign (number : Nat) (name : String) (firstLine : Nat)
  deriving Inhabited

namespace CodeUnit

def id : CodeUnit → CodeId
  | loaded address _ => .loaded address
  | foreign number _ _ => .foreign number

def name : CodeUnit → String
  | loaded _ code => code.name
  | foreign _ name _ => name

def lineAt? (offset : Nat) : CodeUnit → Option Nat
  | loaded _ code => code.lineAt? offset
  | foreign _ _ firstLine => some firstLine

/-- The name and the identity between angle brackets. -/
def text (u : CodeUnit) : String :=
  "<code " ++ u.name ++ " " ++ u.id.text ++ ">"

end CodeUnit

end Tracepoint
