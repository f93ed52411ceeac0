/-
**Integer arithmetic is exact or an exception.**

An operator on integers either returns the result that the integers have in mathematics or raises
an exception, and it says exactly when it does which.  For sums, differences and products this is
the definition of a word with an exact value.  A division is computed in steps: the quotient rounded
toward zero, less one if something remains and the signs differ.  What it comes to is the floor of
the rational quotient, because taking one off moves what remains to the side of the divisor.

Main definitions:

* `Tracepoint.BinaryOperator.Computes` — sums, differences and products of integers;
* `Tracepoint.Word.IsFloor` — a quotient that leaves a nonnegative fraction of the divisor;
* `Tracepoint.Heap.ComputesExactly` — **what operators do with two integers**.

Main results:

* `Tracepoint.Word.isFloor_iff` — the quotient that leaves a nonnegative fraction is the floor;
* `Tracepoint.Word.isFloor_of_divide?` — **a division comes to the floor**;
* `Tracepoint.Heap.integer_arithmetic_exact` — operators are exact on all integers.
-/

import Mathlib.Algebra.Order.Field.Basic
import Mathlib.Algebra.Order.Floor.Ring
import Mathlib.Data.Rat.Floor
import Tracepoint.Value.Arithmetic

set_option relaxedAutoImplicit false
set_option autoImplicit false

namespace Tracepoint

/-! ### What is computed in mathematics -/

/-- **What an operator computes** from two integers. -/
inductive BinaryOperator.Computes (a b : ℤ) : BinaryOperator → ℤ → Prop
  | add : Computes a b .add (a + b)
  | sub : Computes a b .sub (a - b)
  | mul : Computes a b .mul (a * b)

namespace Word

/-- The integer is that of a word. -/
def Fits (n : ℤ) : Prop := Int64.minValue.toInt ≤ n ∧ n ≤ Int64.maxValue.toInt

/-- **What `q` times the divisor leaves of the dividend is a nonnegative fraction** of the divisor,
smaller than one. -/
def IsFloor (a b q : ℤ) : Prop :=
  0 ≤ ((a - q * b : ℤ) : ℚ) / b ∧ ((a - q * b : ℤ) : ℚ) / b < 1

section Floor

variable {a b q : ℤ}

/-- There is one such quotient, the floor of the rational one. -/
theorem isFloor_iff (hb : b ≠ 0) : IsFloor a b q ↔ ⌊(a / b : ℚ)⌋ = q := by
  have hb' : (b : ℚ) ≠ 0 := Int.cast_ne_zero.2 hb
  have hleft : ((a - q * b : ℤ) : ℚ) / b = a / b - q := by
    rw [Int.cast_sub, Int.cast_mul, sub_div, mul_div_cancel_right₀ _ hb']
  rw [IsFloor, hleft, Int.floor_eq_iff, sub_nonneg, sub_lt_iff_lt_add']

/-- What is left is on the side of the divisor, and smaller. -/
theorem isFloor_of_left (h : 0 ≤ a - q * b ∧ a - q * b < b ∨ a - q * b ≤ 0 ∧ b < a - q * b) :
    IsFloor a b q := by
  unfold IsFloor
  generalize a - q * b = left at h
  rcases h with ⟨hnonneg, hlt⟩ | ⟨hnonpos, hgt⟩
  · have hb : (0 : ℚ) < b := Int.cast_pos.2 (by omega)
    exact ⟨div_nonneg (Int.cast_nonneg hnonneg) hb.le, (div_lt_one hb).2 (Int.cast_lt.2 hlt)⟩
  · have hb : (b : ℚ) < 0 := Int.cast_lt_zero.2 (by omega)
    exact ⟨div_nonneg_of_nonpos (Int.cast_nonpos.2 hnonpos) hb.le,
      (div_lt_one_of_neg hb).2 (Int.cast_lt.2 hgt)⟩

/-- What remains of a division toward zero is smaller than the divisor, and on the side of the
dividend. -/
theorem tmod_bounds (a : ℤ) (hb : b ≠ 0) :
    (a.tmod b).natAbs < b.natAbs ∧ (0 ≤ a → 0 ≤ a.tmod b) ∧ (a ≤ 0 → a.tmod b ≤ 0) := by
  refine ⟨?_, Int.tmod_nonneg b, fun ha => ?_⟩
  · rw [Int.natAbs_tmod]
    exact Nat.mod_lt _ (Int.natAbs_pos.2 hb)
  · have hneg := Int.tmod_nonneg b (Int.neg_nonneg_of_nonpos ha)
    rw [Int.neg_tmod] at hneg
    omega

end Floor

variable {a b : Int64}

/-- **A division comes to the floor**: where the remainder is on the side of the divisor the
quotient stays, and elsewhere one less moves it there. -/
theorem isFloor_of_divide? {w : Int64} (h : divide? a b = some (.ok w)) :
    IsFloor a.toInt b.toInt w.toInt := by
  rcases divide?_cases a b with ⟨-, h'⟩ | ⟨-, -, h'⟩ | ⟨q, r, w', hq, hr, h', hw⟩ <;>
    rw [h] at h' <;> cases h'
  obtain ⟨r', hr', hrem⟩ := exists_remainder? hq
  obtain rfl : r = r' := Option.some.inj (hr.symm.trans hr')
  have hne : b.toInt ≠ 0 := toInt_ne_zero (ne_zero_of_quotient? hq)
  obtain ⟨hlt, hnonneg, hnonpos⟩ := tmod_bounds a.toInt hne
  have hleft : a.toInt - q.toInt * b.toInt = r.toInt := by
    rw [hrem, toInt_of_quotient? hq, Int.tmod_def, Int.mul_comm]
  have hzero : r ≠ 0 ↔ r.toInt ≠ 0 := by rw [ne_eq, ← Int64.toInt_inj, Int64.toInt_zero]
  simp only [hzero, Int64.lt_iff_toInt_lt, Int64.toInt_zero] at hw
  rw [← hrem] at hlt hnonneg hnonpos
  apply isFloor_of_left
  split at hw
  · have hless : a.toInt - w.toInt * b.toInt = r.toInt + b.toInt := by
      rw [hw, Int.sub_mul, Int.one_mul, ← hleft]
      omega
    rw [hless]
    omega
  · rw [hw, Int.sub_zero, hleft]
    omega

end Word

/-! ### What operators do -/

namespace Heap

/-- **What operators do with two integers**: -/
structure ComputesExactly (h : Heap) (a b : Int64) : Prop where
  /-- they return a sum, a difference or a product exactly if it is that of a word, -/
  returns : ∀ op n, op.Computes a.toInt b.toInt n →
    ((∃ w, h.operate op (.int a) (.int b) = (h, .ok (.int w)) ∧ w.toInt = n) ↔ Word.Fits n)
  /-- and raise the overflow otherwise; -/
  overflows : ∀ op n, op.Computes a.toInt b.toInt n →
    (h.operate op (.int a) (.int b) = (h, .error ⟨.valueError, "integer overflow"⟩) ↔
      ¬Word.Fits n)
  /-- a division by zero, and no other one, is refused, -/
  divisionByZero : h.operate .floorDiv (.int a) (.int b) =
    (h, .error ⟨.zeroDivisionError, "integer division or modulo by zero"⟩) ↔ b = 0
  /-- that of the least integer by minus one, and no other one, overflows, -/
  divisionOverflows : h.operate .floorDiv (.int a) (.int b) =
    (h, .error ⟨.valueError, "integer overflow"⟩) ↔ a = Int64.minValue ∧ b = -1
  /-- and each other one returns the floor of the rational quotient, which is the only one that
  leaves a nonnegative fraction of the divisor; -/
  divides : b ≠ 0 → ¬(a = Int64.minValue ∧ b = -1) →
    ∃ w, h.operate .floorDiv (.int a) (.int b) = (h, .ok (.int w)) ∧
      w.toInt = ⌊(a.toInt / b.toInt : ℚ)⌋ ∧ ∀ q, Word.IsFloor a.toInt b.toInt q ↔ q = w.toInt
  /-- the remainder is taken only where it has a result, -/
  remainder : ∀ q, Word.quotient? a b = some q →
    ∃ r, Word.remainder? a b = some r ∧ r.toInt = a.toInt.tmod b.toInt
  /-- one is taken off the quotient only where that has a result, -/
  correction : ∀ q r, Word.quotient? a b = some q → Word.remainder? a b = some r → r ≠ 0 →
    ∃ p, Word.difference? q 1 = some p ∧ p.toInt = q.toInt - 1
  /-- so that no step of the division is without one. -/
  steps : ∃ r, Word.divide? a b = some r ∧
    h.operate .floorDiv (.int a) (.int b) = (h, r.map .int)

section Operating

variable {h : Heap} {a b : Int64} {op : BinaryOperator} {n : ℤ}

/-- A sum, a difference or a product is the value of the exact result. -/
theorem operate_of_computes (hop : op.Computes a.toInt b.toInt n) :
    h.operate op (.int a) (.int b) = (h, Value.ofInt n) := by
  cases hop <;> rfl

theorem operate_floorDiv {r : Except Exception Int64} (hr : Word.divide? a b = some r) :
    h.operate .floorDiv (.int a) (.int b) = (h, r.map .int) :=
  congrArg (Prod.mk h) (Value.floorDiv_of_divide? hr)

theorem ofInt_of_fits (hn : Word.Fits n) : ∃ w, Value.ofInt n = .ok (.int w) ∧ w.toInt = n := by
  obtain ⟨w, hw, htoInt⟩ := Word.exists_ofInt? hn
  exact ⟨w, by rw [Value.ofInt, hw], htoInt⟩

theorem ofInt_of_not_fits (hn : ¬Word.Fits n) : Value.ofInt n = .error .overflow := by
  rw [Value.ofInt, Word.ofInt?_eq_none_iff.2 hn]

end Operating

/-- **Integer arithmetic is exact or an exception**, for all integers. -/
theorem integer_arithmetic_exact (h : Heap) (a b : Int64) : h.ComputesExactly a b where
  returns op n hop := by
    rw [operate_of_computes hop]
    constructor
    · rintro ⟨w, -, rfl⟩
      exact Word.toInt_bounds w
    · intro hn
      obtain ⟨w, hw, htoInt⟩ := ofInt_of_fits hn
      exact ⟨w, by rw [hw], htoInt⟩
  overflows op n hop := by
    rw [operate_of_computes hop]
    constructor
    · intro herror hn
      obtain ⟨w, hw, -⟩ := ofInt_of_fits hn
      rw [hw] at herror
      cases herror
    · intro hn
      rw [ofInt_of_not_fits hn]
      rfl
  divisionByZero := by
    rcases Word.divide?_cases a b with ⟨hb, hr⟩ | ⟨hb, -, hr⟩ | ⟨q, _, _, hq, -, hr, -⟩ <;>
      rw [operate_floorDiv hr]
    · exact ⟨fun _ => hb, fun _ => rfl⟩
    · exact ⟨nofun, fun hzero => absurd hzero hb⟩
    · exact ⟨nofun, fun hzero => absurd hzero (Word.ne_zero_of_quotient? hq)⟩
  divisionOverflows := by
    rcases Word.divide?_cases a b with ⟨hb, hr⟩ | ⟨hb, hq, hr⟩ | ⟨q, _, _, hq, -, hr, -⟩ <;>
      rw [operate_floorDiv hr]
    · refine ⟨nofun, ?_⟩
      rintro ⟨-, rfl⟩
      cases hb
    · exact ⟨fun _ => (Word.quotient?_eq_none_iff hb).1 hq, fun _ => rfl⟩
    · refine ⟨nofun, fun hleast => ?_⟩
      have hnone := (Word.quotient?_eq_none_iff (Word.ne_zero_of_quotient? hq)).2 hleast
      rw [hq] at hnone
      cases hnone
  divides hb hleast := by
    rcases Word.divide?_cases a b with ⟨hzero, -⟩ | ⟨-, hq, -⟩ | ⟨_, _, w, -, -, hr, -⟩
    · exact absurd hzero hb
    · exact absurd ((Word.quotient?_eq_none_iff hb).1 hq) hleast
    · have hne := Word.toInt_ne_zero hb
      have hfloor := (Word.isFloor_iff hne).1 (Word.isFloor_of_divide? hr)
      refine ⟨w, operate_floorDiv hr, hfloor.symm, fun q => ?_⟩
      rw [Word.isFloor_iff hne, hfloor, eq_comm]
  remainder q hq := Word.exists_remainder? hq
  correction q r hq hr hne := by
    obtain ⟨r', hr', hrem⟩ := Word.exists_remainder? hq
    obtain rfl : r = r' := Option.some.inj (hr.symm.trans hr')
    exact Word.exists_difference? hq (hrem ▸ Word.toInt_ne_zero hne)
  steps := by
    obtain ⟨r, hr⟩ := Option.isSome_iff_exists.1 (Word.isSome_divide? a b)
    exact ⟨r, hr, operate_floorDiv hr⟩

example : Heap.empty.operate .floorDiv (.int (-7)) (.int 2) = (.empty, .ok (.int (-4))) := by
  rfl

end Heap

end Tracepoint
