/-
**Equality of values.**

Scalars, texts, natives and exceptions are compared by content, tuples and lists item by item,
functions, iterators and generators by identity.  Values of different types are never equal, nor
are tuples or lists of different lengths, whose items are not even looked at.

Lists can contain themselves.  While two different lists are being compared both are *open*, and
a list that is met again while it is open equals only itself.  Since each pair of lists opens two
addresses that were not open before, a comparison is over after at most as many levels as the
heap has lists.

Main definitions:

* `Tracepoint.Value.same` — equality of values, given what lists are equal;
* `Tracepoint.Heap.sameList` — equality of lists, with the open ones given;
* `Tracepoint.Heap.equal` — **equality of values**, with no list open.
-/

import Tracepoint.Heap

set_option relaxedAutoImplicit false
set_option autoImplicit false

namespace Tracepoint

mutual

/-- Equality of values, given which lists are equal. -/
def Value.same (lists : Nat → Nat → Bool) : Value → Value → Bool
  | .null, .null => true
  | .bool a, .bool b => a == b
  | .int a, .int b => a == b
  | .str a, .str b => a == b
  | .tuple a, .tuple b => a.length == b.length && Value.sameItems lists a b
  | .list a, .list b => lists a b
  | .function a, .function b => a == b
  | .native a, .native b => a == b
  | .exception a, .exception b => a == b
  | .iterator a, .iterator b => a == b
  | .generator a, .generator b => a == b
  | _, _ => false

/-- Equality of rows of values: of one length, and equal item by item. -/
def Value.sameItems (lists : Nat → Nat → Bool) : List Value → List Value → Bool
  | [], [] => true
  | a :: as, b :: bs => Value.same lists a b && Value.sameItems lists as bs
  | _, _ => false

end

/-- Rows that are equal are of one length. -/
theorem Value.length_eq_of_sameItems {lists : Nat → Nat → Bool} :
    ∀ {a b : List Value}, Value.sameItems lists a b = true → a.length = b.length
  | [], [], _ => rfl
  | [], _ :: _, h => by simp [Value.sameItems] at h
  | _ :: _, [], h => by simp [Value.sameItems] at h
  | _ :: as, _ :: bs, h => by
      simp only [Value.sameItems, Bool.and_eq_true] at h
      simp [Value.length_eq_of_sameItems h.2]

namespace Heap

/-- Equality of the lists at two addresses while the lists of `opened` are open, looking at most
`levels` lists deep. -/
def sameList (h : Heap) : Nat → List Nat → Nat → Nat → Bool
  | 0, _, a, b => a == b
  | levels + 1, opened, a, b =>
      a == b ||
        (!opened.contains a && !opened.contains b && (h.items a).size == (h.items b).size &&
          Value.sameItems (h.sameList levels (a :: b :: opened))
            (h.items a).toList (h.items b).toList)

/-- **Equality of two values.** -/
def equal (h : Heap) (v w : Value) : Bool :=
  v.same (h.sameList (h.lists.size + 1) []) w

/-- A list equals itself, however deep one looks. -/
@[simp] theorem sameList_self (h : Heap) (levels : Nat) (opened : List Nat) (a : Nat) :
    h.sameList levels opened a a = true := by
  cases levels <;> simp [sameList]

end Heap

end Tracepoint
