/-
**Unsigned decimal numbers.**

A number is written with at least one of the digits from `0` to `9`; a plus sign may stand in
front, and leading zeros count for nothing.

Main definitions:

* `Tracepoint.Text.digitValue?` — the value of a digit;
* `Tracepoint.Text.decimalValue?` — the value of a row of digits;
* `Tracepoint.Text.decimalBelow?` — the same, given up as soon as a bound is reached;
* `Tracepoint.Text.parseUnsigned` — a number below a bound, read from a text.
-/

set_option relaxedAutoImplicit false
set_option autoImplicit false

namespace Tracepoint.Text

/-- The value of a digit from `0` to `9`. -/
def digitValue? (c : Char) : Option Nat :=
  if c.isDigit then some (c.toNat - '0'.toNat) else none

/-- The number that a row of digits writes after the digits of `n`; nothing if some character is
no digit. -/
def decimalValue? (n : Nat) : List Char → Option Nat
  | [] => some n
  | c :: cs => do decimalValue? (n * 10 + (← digitValue? c)) cs

/-- The number below `bound` that a row of digits writes after the digits of `n`.  Further digits
never make a number smaller, so that nothing is read beyond the bound. -/
def decimalBelow? (bound n : Nat) : List Char → Option Nat
  | [] => if n < bound then some n else none
  | c :: cs =>
      if n < bound then do decimalBelow? bound (n * 10 + (← digitValue? c)) cs else none

/-- The digits of a number whose plus sign, if it has one, is left out. -/
def unsignedDigits : List Char → List Char
  | '+' :: cs => cs
  | cs => cs

/-- The number below `bound` that the text writes, if it writes one. -/
def parseUnsigned (bound : Nat) (s : String) : Option Nat :=
  match unsignedDigits s.toList with
  | [] => none
  | cs => decimalBelow? bound 0 cs

@[simp] theorem decimalValue?_nil (n : Nat) : decimalValue? n [] = some n := rfl

/-- Digits behind a number do not make it smaller. -/
theorem le_of_decimalValue? {n m : Nat} {cs : List Char} (h : decimalValue? n cs = some m) :
    n ≤ m := by
  induction cs generalizing n with
  | nil => simp_all
  | cons c cs ih =>
      simp only [decimalValue?, Option.bind_eq_bind, Option.bind_eq_some_iff] at h
      obtain ⟨d, -, h⟩ := h
      have := ih h
      omega

/-- To stop at the bound is to read everything and to compare then. -/
theorem decimalBelow?_eq (bound n : Nat) (cs : List Char) :
    decimalBelow? bound n cs = (decimalValue? n cs).filter (· < bound) := by
  induction cs generalizing n with
  | nil => by_cases h : n < bound <;> simp [decimalBelow?, Option.filter, h]
  | cons c cs ih =>
      by_cases h : n < bound
      · cases hd : digitValue? c <;> simp [decimalBelow?, decimalValue?, h, hd, ih]
      · cases hv : decimalValue? n (c :: cs) with
        | none => simp [decimalBelow?, h]
        | some m =>
            have : ¬ m < bound := fun hm => h (Nat.lt_of_le_of_lt (le_of_decimalValue? hv) hm)
            simp [decimalBelow?, Option.filter, h, this]

theorem parseUnsigned_lt {bound n : Nat} {s : String} (h : parseUnsigned bound s = some n) :
    n < bound := by
  unfold parseUnsigned at h
  split at h
  · simp at h
  · rw [decimalBelow?_eq] at h
    simpa using (Option.filter_eq_some_iff.1 h).2

end Tracepoint.Text
