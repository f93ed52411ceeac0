/-
**Operators.**

Integers are signed words of 64 bits.  An operator computes the exact result and raises an
exception if it does not fit; division rounds toward negative infinity.  Texts and lists can be
added, integers be ordered, and any two values be compared for equality.

A division takes several steps, and a step on words may have no result: the divisor is zero, or the
result does not fit.  Only the first step of a division, the quotient rounded toward zero, can
fail; the steps that correct it have a result whenever they are taken.

Main definitions:

* `Tracepoint.Word.ofInt?` — the word with an exact value, if it fits;
* `Tracepoint.Word.quotient?`, `Tracepoint.Word.remainder?`, `Tracepoint.Word.difference?` — steps
  on words;
* `Tracepoint.Word.divide?` — **the steps of a division** that rounds toward negative infinity;
* `Tracepoint.Heap.operate` — an operator on any two values.

Main results:

* `Tracepoint.Word.quotient?_eq_none_iff` — when there is no quotient;
* `Tracepoint.Word.divide?_cases` — what the steps of a division come to;
* `Tracepoint.Word.isSome_divide?` — **no step of a division is without a result**.
-/

import Tracepoint.Value.Equality

set_option relaxedAutoImplicit false
set_option autoImplicit false

namespace Tracepoint

/-- The sign that writes an operator. -/
def BinaryOperator.symbol : BinaryOperator → String
  | add => "+"
  | sub => "-"
  | mul => "*"
  | floorDiv => "//"
  | lt => "<"
  | eq => "=="

/-! ### Words -/

namespace Word

variable {a b : Int64} {n : Int}

/-- The word with an exact value, if it fits. -/
def ofInt? (n : Int) : Option Int64 :=
  if Int64.minValue.toInt ≤ n ∧ n ≤ Int64.maxValue.toInt then some (Int64.ofInt n) else none

theorem toInt_least : Int64.minValue.toInt = -0x8000000000000000 := by decide

theorem toInt_greatest : Int64.maxValue.toInt = 0x7fffffffffffffff := by decide

theorem toInt_bounds (a : Int64) :
    Int64.minValue.toInt ≤ a.toInt ∧ a.toInt ≤ Int64.maxValue.toInt := by
  rw [Int64.toInt_minValue]
  exact ⟨a.le_toInt, a.toInt_le⟩

theorem toInt_ne_zero (ha : a ≠ 0) : a.toInt ≠ 0 := by
  rwa [ne_eq, ← Int64.toInt_zero, Int64.toInt_inj]

/-- The word with an exact value has this value. -/
theorem ofInt?_eq_some_iff : ofInt? n = some a ↔ a.toInt = n := by
  unfold ofInt?
  constructor
  · intro h
    split at h
    · rename_i hfits
      rw [Int64.toInt_minValue, Int64.toInt_maxValue] at hfits
      cases h
      exact Int64.toInt_ofInt_of_le hfits.1 (Int.lt_of_le_sub_one hfits.2)
    · cases h
  · rintro rfl
    rw [if_pos (toInt_bounds a), Int64.ofInt_toInt]

theorem ofInt?_eq_none_iff :
    ofInt? n = none ↔ ¬(Int64.minValue.toInt ≤ n ∧ n ≤ Int64.maxValue.toInt) := by
  unfold ofInt?
  split <;> simp_all

theorem exists_ofInt? (h : Int64.minValue.toInt ≤ n ∧ n ≤ Int64.maxValue.toInt) :
    ∃ w, ofInt? n = some w ∧ w.toInt = n := by
  have hw : ofInt? n = some (Int64.ofInt n) := if_pos h
  exact ⟨Int64.ofInt n, hw, ofInt?_eq_some_iff.1 hw⟩

/-- The quotient rounded toward zero.  There is none by zero, and none that does not fit. -/
def quotient? (a b : Int64) : Option Int64 :=
  if b = 0 then none else ofInt? (a.toInt.tdiv b.toInt)

/-- The remainder that belongs to the quotient, if there is a quotient. -/
def remainder? (a b : Int64) : Option Int64 :=
  (quotient? a b).bind fun _ => ofInt? (a.toInt.tmod b.toInt)

def difference? (a b : Int64) : Option Int64 :=
  ofInt? (a.toInt - b.toInt)

/-- **The steps of a division**: the quotient rounded toward zero, less one if something remains and
the signs differ.  Nothing is left if a step after the quotient has no result. -/
def divide? (a b : Int64) : Option (Except Exception Int64) :=
  if b = 0 then some (.error .divisionByZero)
  else
    match quotient? a b with
    | none => some (.error .overflow)
    | some q =>
        (remainder? a b).bind fun r =>
          if r ≠ 0 ∧ ¬(a < 0 ↔ b < 0) then (difference? q 1).map .ok else some (.ok q)

/-! ### What the steps come to -/

/-- A quotient by at least two is at most half as large. -/
theorem natAbs_tdiv_le_half (n : Int) {d : Int} (hd : 2 ≤ d.natAbs) :
    (n.tdiv d).natAbs ≤ n.natAbs / 2 := by
  rw [Int.natAbs_tdiv]
  exact Nat.div_le_div_left hd (by decide)

/-- **The only quotient that does not fit** is that of the least integer by minus one. -/
theorem quotient?_eq_none_iff (hb : b ≠ 0) :
    quotient? a b = none ↔ a = Int64.minValue ∧ b = -1 := by
  have hleast : a = Int64.minValue ↔ a.toInt = -0x8000000000000000 := by
    rw [← Int64.toInt_inj, toInt_least]
  have hone : b = -1 ↔ b.toInt = -1 := by
    rw [← Int64.toInt_inj]
    rfl
  have hbounds := toInt_bounds a
  have hzero := toInt_ne_zero hb
  rw [quotient?, if_neg hb, ofInt?_eq_none_iff, hleast, hone]
  rw [toInt_least, toInt_greatest] at hbounds ⊢
  generalize a.toInt = n at hbounds ⊢
  generalize b.toInt = d at hzero ⊢
  rcases Nat.lt_or_ge d.natAbs 2 with hsmall | hlarge
  · rcases (by omega : d = 1 ∨ d = -1) with rfl | rfl
    · rw [Int.tdiv_one]
      omega
    · rw [Int.tdiv_neg, Int.tdiv_one]
      omega
  · have hhalf := natAbs_tdiv_le_half n hlarge
    omega

section Steps

variable {q : Int64} (hq : quotient? a b = some q)
include hq

theorem ne_zero_of_quotient? : b ≠ 0 := by
  rintro rfl
  simp [quotient?] at hq

theorem toInt_of_quotient? : q.toInt = a.toInt.tdiv b.toInt := by
  rw [quotient?, if_neg (ne_zero_of_quotient? hq)] at hq
  exact ofInt?_eq_some_iff.1 hq

/-- Where there is a quotient there is a remainder. -/
theorem exists_remainder? : ∃ r, remainder? a b = some r ∧ r.toInt = a.toInt.tmod b.toInt := by
  have hbounds := toInt_bounds b
  have habs := Int.natAbs_tmod a.toInt b.toInt
  have hlt : a.toInt.natAbs % b.toInt.natAbs < b.toInt.natAbs :=
    Nat.mod_lt _ (Int.natAbs_pos.2 (toInt_ne_zero (ne_zero_of_quotient? hq)))
  rw [remainder?, hq, Option.bind_some]
  refine exists_ofInt? ?_
  rw [toInt_least, toInt_greatest] at *
  omega

/-- Where something remains, the quotient is not the least word, and there is one below it. -/
theorem exists_difference? (hr : a.toInt.tmod b.toInt ≠ 0) :
    ∃ p, difference? q 1 = some p ∧ p.toInt = q.toInt - 1 := by
  have hbounds := toInt_bounds a
  have hlarge : 2 ≤ b.toInt.natAbs := by
    have habs := Int.natAbs_tmod a.toInt b.toInt
    rcases (by omega : b.toInt.natAbs = 0 ∨ b.toInt.natAbs = 1 ∨ 2 ≤ b.toInt.natAbs) with
      hzero | hone | hlarge
    · exact absurd (Int.natAbs_eq_zero.1 hzero) (toInt_ne_zero (ne_zero_of_quotient? hq))
    · rw [hone, Nat.mod_one] at habs
      exact absurd (Int.natAbs_eq_zero.1 habs) hr
    · exact hlarge
  have hhalf := natAbs_tdiv_le_half a.toInt hlarge
  rw [difference?, Int64.toInt_one]
  refine exists_ofInt? ?_
  rw [toInt_of_quotient? hq]
  rw [toInt_least, toInt_greatest] at *
  omega

end Steps

/-- The steps of a division, and what they come to. -/
theorem divide?_cases (a b : Int64) :
    (b = 0 ∧ divide? a b = some (.error .divisionByZero)) ∨
      (b ≠ 0 ∧ quotient? a b = none ∧ divide? a b = some (.error .overflow)) ∨
      ∃ q r w, quotient? a b = some q ∧ remainder? a b = some r ∧ divide? a b = some (.ok w) ∧
        w.toInt = q.toInt - if r ≠ 0 ∧ ¬(a < 0 ↔ b < 0) then 1 else 0 := by
  unfold divide?
  by_cases hb : b = 0
  · exact Or.inl ⟨hb, if_pos hb⟩
  right
  rw [if_neg hb]
  cases hq : quotient? a b with
  | none => exact Or.inl ⟨hb, rfl, rfl⟩
  | some q =>
      right
      obtain ⟨r, hr, hrem⟩ := exists_remainder? hq
      simp only [hr, Option.bind_some]
      split
      · rename_i hcorrect
        have hne : a.toInt.tmod b.toInt ≠ 0 := hrem ▸ toInt_ne_zero hcorrect.1
        obtain ⟨p, hp, hless⟩ := exists_difference? hq hne
        exact ⟨q, r, p, rfl, rfl, by rw [hp, Option.map_some], by rw [hless, if_pos hcorrect]⟩
      · rename_i hdone
        exact ⟨q, r, q, rfl, rfl, rfl, by rw [if_neg hdone, Int.sub_zero]⟩

/-- **No step of a division is without a result** when it is taken. -/
theorem isSome_divide? (a b : Int64) : (divide? a b).isSome = true := by
  rcases divide?_cases a b with ⟨-, h⟩ | ⟨-, -, h⟩ | ⟨_, _, _, -, -, h, -⟩ <;> rw [h] <;> rfl

end Word

/-! ### Operators -/

/-- The integer value of an exact result, or the overflow. -/
def Value.ofInt (n : Int) : Except Exception Value :=
  match Word.ofInt? n with
  | some w => .ok (.int w)
  | none => .error .overflow

/-- The quotient of two integers, rounded toward negative infinity, unless the divisor is zero or
the quotient does not fit. -/
def Value.floorDiv (a b : Int64) : Except Exception Value :=
  ((Word.divide? a b).get (Word.isSome_divide? a b)).map .int

theorem Value.floorDiv_of_divide? {a b : Int64} {r : Except Exception Int64}
    (h : Word.divide? a b = some r) : Value.floorDiv a b = r.map .int := by
  simp only [Value.floorDiv, h, Option.get_some]

/-- What comes of a division is a word, or one of two exceptions. -/
theorem Value.floorDiv_cases (a b : Int64) :
    Value.floorDiv a b = .error .divisionByZero ∨ Value.floorDiv a b = .error .overflow ∨
      ∃ w, Value.floorDiv a b = .ok (.int w) := by
  rcases Word.divide?_cases a b with ⟨-, h⟩ | ⟨-, -, h⟩ | ⟨_, _, w, -, -, h, -⟩
  · exact Or.inl (floorDiv_of_divide? h)
  · exact Or.inr (Or.inl (floorDiv_of_divide? h))
  · exact Or.inr (Or.inr ⟨w, floorDiv_of_divide? h⟩)

namespace Heap

/-- The value or the exception of an operator, and the heap after it: only adding two lists makes
something new. -/
def operate (h : Heap) (op : BinaryOperator) (v w : Value) : Heap × Except Exception Value :=
  match op, v, w with
  | .eq, v, w => (h, .ok (.bool (h.equal v w)))
  | .add, .int a, .int b => (h, Value.ofInt (a.toInt + b.toInt))
  | .sub, .int a, .int b => (h, Value.ofInt (a.toInt - b.toInt))
  | .mul, .int a, .int b => (h, Value.ofInt (a.toInt * b.toInt))
  | .floorDiv, .int a, .int b => (h, Value.floorDiv a b)
  | .lt, .int a, .int b => (h, .ok (.bool (a < b)))
  | .add, .str a, .str b => (h, .ok (.str (a ++ b)))
  | .add, .list a, .list b => succeed (h.addList (h.items a ++ h.items b))
  | op, v, w => (h, .error (.unsupportedOperands op.symbol v.typeName w.typeName))

end Heap

end Tracepoint
