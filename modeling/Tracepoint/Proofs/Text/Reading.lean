/-
**How texts are read.**

What is written on a command line is read with some tolerance: letters may be of either case, there
may be blanks around a word, and a number may have a sign and leading zeros.  This module says of
each of these readings which texts it takes and for what, without following the way in which it goes
about that: characters that are the two forms of one letter, pieces that give the text when they are
joined, numbers as they are shown.

Several texts are read one after the other, each of them contributing to the result, until one is
refused.  All that has to be known for that is which texts are read and which are refused, and for
what reason.

Main definitions:

* `Tracepoint.Text.Alike` — two texts differ at most in the case of letters;
* `Tracepoint.Text.pieces` — what stands between the separators of a text;
* `Tracepoint.Text.IsNumeral` — a text writes a number;
* `Tracepoint.Text.Reads` — what a reading of single texts takes and what it refuses.

Main results:

* `Tracepoint.Text.sameIgnoringCase_iff_alike` — equality up to the case of letters;
* `Tracepoint.Text.splitAt_eq_splitOn`, `Tracepoint.Text.trim_trim` — pieces, and blanks around
  them;
* `Tracepoint.Text.parseUnsigned_eq_some_iff` — **the numbers that are read**;
* `Tracepoint.Text.Reads.foldlM_eq_ok_iff`, `Tracepoint.Text.Reads.foldlM_eq_error_iff` — **texts
  are read in order** up to the first that is refused.
-/

import Mathlib.Data.List.DropRight
import Mathlib.Data.List.Forall2
import Mathlib.Data.Nat.Notation
import Tracepoint.Text.Blank
import Tracepoint.Text.Decimal
import Tracepoint.Text.LetterCase
import Tracepoint.Text.Pieces

set_option relaxedAutoImplicit false
set_option autoImplicit false

namespace Tracepoint.Text

/-! ### Letters of either case -/

/-- Two characters are the same, or the two forms of one of the letters from A to Z. -/
def SameLetter (c d : Char) : Prop :=
  c = d ∨ ∃ k < 26, (c.toNat = 'A'.toNat + k ∧ d.toNat = 'a'.toNat + k) ∨
    (c.toNat = 'a'.toNat + k ∧ d.toNat = 'A'.toNat + k)

/-- Two texts differ at most in the case of letters. -/
def Alike (s t : String) : Prop := List.Forall₂ SameLetter s.toList t.toList

theorem toNat_toLower (c : Char) :
    c.toLower.toNat =
      if 'A'.toNat ≤ c.toNat ∧ c.toNat ≤ 'Z'.toNat then c.toNat + 32 else c.toNat := by
  unfold Char.toLower
  show Char.toNat (if h : 'A'.toNat ≤ c.toNat ∧ c.toNat ≤ 'Z'.toNat then _ else c) = _
  split
  · rename_i h
    have hle : c.val.toNat ≤ 90 := h.2
    show (c.val + _).toNat = c.val.toNat + 32
    rw [UInt32.toNat_add]
    exact Nat.mod_eq_of_lt (by show c.val.toNat + 32 < _; omega)
  · rfl

/-- The characters with the same lower-case form are those that differ at most in case. -/
theorem toLower_eq_toLower_iff {c d : Char} : c.toLower = d.toLower ↔ SameLetter c d := by
  have hA : 'A'.toNat = 65 := rfl
  have hZ : 'Z'.toNat = 90 := rfl
  have ha : 'a'.toNat = 97 := rfl
  rw [SameLetter, ← Char.toNat_inj, ← Char.toNat_inj, toNat_toLower, toNat_toLower, hA, hZ, ha]
  constructor
  · intro h
    split at h <;> split at h
    · exact Or.inl (by omega)
    · exact Or.inr ⟨c.toNat - 65, by omega⟩
    · exact Or.inr ⟨d.toNat - 65, by omega⟩
    · exact Or.inl h
  · rintro (h | ⟨k, hk, h | h⟩)
    · rw [h]
    · rw [if_pos (by omega), if_neg (by omega)]
      omega
    · rw [if_neg (by omega), if_pos (by omega)]
      omega

/-- **Texts that are the same in lower case differ at most in the case of letters.** -/
theorem sameIgnoringCase_iff_alike {s t : String} : sameIgnoringCase s t = true ↔ Alike s t := by
  have hrow : ∀ cs ds : List Char, cs.map Char.toLower = ds.map Char.toLower ↔
      List.Forall₂ SameLetter cs ds := fun cs ds => by
    rw [← List.forall₂_eq_eq_eq, List.forall₂_map_left_iff, List.forall₂_map_right_iff]
    simp only [toLower_eq_toLower_iff]
  rw [sameIgnoringCase, beq_iff_eq, hrow, Alike]

theorem alike_iff {s t : String} : Alike s t ↔ lower s = lower t :=
  sameIgnoringCase_iff_alike.symm.trans sameIgnoringCase_iff

theorem Alike.symm {s t : String} (h : Alike s t) : Alike t s :=
  alike_iff.2 (alike_iff.1 h).symm

theorem Alike.trans {s t u : String} (h : Alike s t) (h' : Alike t u) : Alike s u :=
  alike_iff.2 ((alike_iff.1 h).trans (alike_iff.1 h'))

theorem alike_lower (s : String) : Alike s (lower s) := by
  have hself : ∀ c : Char, c.toLower.toLower = c.toLower := fun c => by
    have hA : 'A'.toNat = 65 := rfl
    have hZ : 'Z'.toNat = 90 := rfl
    rw [← Char.toNat_inj, toNat_toLower c.toLower, toNat_toLower c, hA, hZ]
    by_cases h : 65 ≤ c.toNat ∧ c.toNat ≤ 90
    · rw [if_pos h, if_neg (by omega)]
    · rw [if_neg h, if_neg h]
  rw [alike_iff, lower, lower, String.toList_ofList, List.map_map]
  exact congrArg _ (List.map_congr_left fun c _ => (hself c).symm)

theorem SameLetter.eq_of_lt {c d : Char} (h : SameLetter c d) (hd : d.toNat < 'A'.toNat) :
    c = d := by
  have hA : 'A'.toNat = 65 := rfl
  have ha : 'a'.toNat = 97 := rfl
  rcases h with h | ⟨k, hk, h | h⟩
  · exact h
  · omega
  · omega

/-- A text without letters is alike to itself only. -/
theorem Alike.eq_of_no_letters {s t : String} (h : Alike s t)
    (ht : ∀ c ∈ t.toList, c.toNat < 'A'.toNat) : s = t := by
  rw [← String.toList_inj]
  unfold Alike at h
  generalize s.toList = cs, t.toList = ds at h ht
  induction h with
  | nil => rfl
  | cons hcd _ ih =>
      rw [List.forall_mem_cons] at ht
      rw [hcd.eq_of_lt ht.1, ih ht.2]

/-! ### Pieces and blanks around them -/

/-- What stands between the separators of a text. -/
def pieces (sep : Char) (text : String) : List String :=
  (text.toList.splitOn sep).map String.ofList

/-- Words without separators are the pieces of what they are joined to. -/
theorem pieces_intercalate {sep : Char} {mark : String} (hmark : mark.toList = [sep])
    {words : List String} (h : ∀ word ∈ words, sep ∉ word.toList) (hne : words ≠ []) :
    pieces sep (mark.intercalate words) = words := by
  have hrow : ∀ cs ∈ words.map String.toList, sep ∉ cs := by
    rw [List.forall_mem_map]
    exact h
  rw [pieces, String.toList_intercalate, hmark,
    List.splitOn_intercalate sep hrow fun hnil => hne (List.map_eq_nil_iff.1 hnil)]
  simp

theorem joinWith_eq_intercalate (sep : Char) (pieces : List (List Char)) :
    joinWith sep pieces = [sep].intercalate pieces := by
  induction pieces with
  | nil => rfl
  | cons piece rest ih =>
      cases rest with
      | nil => simp
      | cons next rest =>
          rw [joinWith_cons (List.cons_ne_nil _ _), ih, List.intercalate_cons_cons]
          simp

/-- The pieces are those between the separators. -/
theorem splitAt_eq_splitOn (sep : Char) (cs : List Char) : splitAt sep cs = cs.splitOn sep := by
  have hjoin := joinWith_splitAt sep cs
  rw [joinWith_eq_intercalate] at hjoin
  calc splitAt sep cs
      = ([sep].intercalate (splitAt sep cs)).splitOn sep :=
        (List.splitOn_intercalate sep (fun _ hp => not_mem_of_mem_splitAt hp)
          (splitAt_ne_nil sep cs)).symm
    _ = cs.splitOn sep := by rw [hjoin]

/-- What is left of a text does not begin with a blank. -/
theorem dropWhile_trimChars (cs : List Char) :
    (trimChars cs).dropWhile isBlank = trimChars cs := by
  rw [List.dropWhile_eq_self_iff]
  intro hl
  have hstart : trimChars cs <+: cs.dropWhile isBlank := List.rdropWhile_prefix ..
  rw [hstart.getElem hl]
  exact List.dropWhile_get_zero_not isBlank cs (Nat.lt_of_lt_of_le hl hstart.length_le)

@[simp] theorem trim_trim (s : String) : trim (trim s) = trim s := by
  rw [trim, trim, String.toList_ofList, trimChars, dropWhile_trimChars]
  exact congrArg _ (List.rdropWhile_idempotent isBlank (s.toList.dropWhile isBlank))

/-! ### Rows of digits -/

/-- A row of digits is read for the number that it writes. -/
theorem decimalValue?_eq_some_iff {n m : ℕ} {cs : List Char} :
    decimalValue? n cs = some m ↔ (∀ c ∈ cs, c.isDigit = true) ∧ Nat.ofDigitChars 10 cs n = m := by
  induction cs generalizing n with
  | nil => simp
  | cons c cs ih =>
      rw [decimalValue?, digitValue?, List.forall_mem_cons, Nat.ofDigitChars_cons]
      split
      · rename_i h
        simp [h, ih, Nat.mul_comm]
      · rename_i h
        simp [h]

theorem digitChar_of_isDigit {c : Char} (h : c.isDigit = true) :
    c.toNat - '0'.toNat < 10 ∧ (c.toNat - '0'.toNat).digitChar = c := by
  have hbounds : 48 ≤ c.toNat ∧ c.toNat ≤ 57 := by
    simpa [Char.isDigit, UInt32.le_iff_toNat_le] using h
  have hlt : c.toNat - '0'.toNat < 10 := by
    show c.toNat - 48 < 10
    omega
  refine ⟨hlt, Char.toNat_inj.1 ?_⟩
  rw [Nat.toNat_digitChar_of_lt_ten hlt]
  show 48 + (c.toNat - 48) = c.toNat
  omega

/-- Digits behind a number other than zero are the last digits of what is written then. -/
theorem toDigits_ofDigitChars {n : ℕ} (hn : 0 < n) {cs : List Char}
    (h : ∀ c ∈ cs, c.isDigit = true) :
    Nat.toDigits 10 (Nat.ofDigitChars 10 cs n) = Nat.toDigits 10 n ++ cs := by
  induction cs generalizing n with
  | nil => simp
  | cons c cs ih =>
      rw [List.forall_mem_cons] at h
      obtain ⟨hlt, hc⟩ := digitChar_of_isDigit h.1
      rw [Nat.ofDigitChars_cons, ih (by omega) h.2,
        ← Nat.toDigits_append_toDigits (by decide) hn hlt, Nat.toDigits_of_lt_base hlt, hc]
      simp

/-- Digits are those of the number that they write, behind any number of zeros. -/
theorem exists_zeros {cs : List Char} (hne : cs ≠ []) (h : ∀ c ∈ cs, c.isDigit = true) :
    ∃ zeros, cs = List.replicate zeros '0' ++ Nat.toDigits 10 (Nat.ofDigitChars 10 cs 0) := by
  induction cs with
  | nil => exact absurd rfl hne
  | cons c cs ih =>
      rw [List.forall_mem_cons] at h
      obtain ⟨hlt, hc⟩ := digitChar_of_isDigit h.1
      rw [Nat.ofDigitChars_cons, Nat.mul_zero, Nat.zero_add]
      generalize c.toNat - '0'.toNat = d at hlt hc
      rcases Nat.eq_zero_or_pos d with rfl | hd
      · obtain rfl : '0' = c := hc
        cases cs with
        | nil => exact ⟨0, rfl⟩
        | cons e es =>
            obtain ⟨zeros, hzeros⟩ := ih (List.cons_ne_nil e es) h.2
            exact ⟨zeros + 1, congrArg ('0' :: ·) hzeros⟩
      -- from a digit other than zero on, nothing is left out
      · refine ⟨0, ?_⟩
        rw [toDigits_ofDigitChars hd h.2, Nat.toDigits_of_lt_base hlt, hc]
        rfl

theorem ofDigitChars_zeros (zeros n : ℕ) :
    Nat.ofDigitChars 10 (List.replicate zeros '0' ++ Nat.toDigits 10 n) 0 = n := by
  induction zeros with
  | zero => exact Nat.ofDigitChars_ten_toDigits
  | succ zeros ih => exact ih

theorem isDigit_of_mem_zeros {zeros n : ℕ} {c : Char}
    (h : c ∈ List.replicate zeros '0' ++ Nat.toDigits 10 n) : c.isDigit = true := by
  rcases List.mem_append.1 h with h | h
  · rw [List.eq_of_mem_replicate h]
    rfl
  · exact Nat.isDigit_of_mem_toDigits (b := 10) (by decide) (by decide) h

theorem decimalValue?_zero_eq_some_iff {n : ℕ} {cs : List Char} (hne : cs ≠ []) :
    decimalValue? 0 cs = some n ↔ ∃ zeros, cs = List.replicate zeros '0' ++ Nat.toDigits 10 n := by
  rw [decimalValue?_eq_some_iff]
  constructor
  · rintro ⟨h, rfl⟩
    exact exists_zeros hne h
  · rintro ⟨zeros, rfl⟩
    exact ⟨fun c => isDigit_of_mem_zeros, ofDigitChars_zeros zeros n⟩

/-! ### Numbers -/

/-- A text writes a number, as it is shown, behind any number of zeros and perhaps a sign. -/
def IsNumeral (text : String) (n : ℕ) : Prop :=
  ∃ sign ∈ ["", "+"], ∃ zeros,
    text = sign ++ String.ofList (List.replicate zeros '0') ++ toString n

theorem unsignedDigits_of_isDigit {cs : List Char} (h : ∀ c ∈ cs, c.isDigit = true) :
    unsignedDigits cs = cs := by
  unfold unsignedDigits
  split
  · have hplus := h '+' (List.mem_cons_self ..)
    cases hplus
  · rfl

theorem unsignedDigits_cases (cs : List Char) :
    cs = unsignedDigits cs ∨ cs = '+' :: unsignedDigits cs := by
  unfold unsignedDigits
  split
  · exact Or.inr rfl
  · exact Or.inl rfl

/-- Behind the sign of a numeral are the digits of its number, and zeros before them. -/
theorem isNumeral_iff {text : String} {n : ℕ} :
    IsNumeral text n ↔
      ∃ zeros, unsignedDigits text.toList = List.replicate zeros '0' ++ Nat.toDigits 10 n := by
  have hlist : ∀ sign zeros,
      text = sign ++ String.ofList (List.replicate zeros '0') ++ toString n ↔
        text.toList = sign.toList ++ (List.replicate zeros '0' ++ Nat.toDigits 10 n) := by
    intro sign zeros
    rw [← String.toList_inj, String.toList_append, String.toList_append, String.toList_ofList,
      Nat.toString_eq_repr, Nat.toList_repr, List.append_assoc]
  constructor
  · rintro ⟨sign, hsign, zeros, htext⟩
    rw [hlist] at htext
    refine ⟨zeros, ?_⟩
    rw [htext]
    rcases List.mem_pair.1 hsign with rfl | rfl
    · exact unsignedDigits_of_isDigit fun _ => isDigit_of_mem_zeros
    · rfl
  · rintro ⟨zeros, hdigits⟩
    rcases unsignedDigits_cases text.toList with h | h
    · exact ⟨"", by simp, zeros, (hlist _ _).2 (h.trans hdigits)⟩
    · exact ⟨"+", by simp, zeros, (hlist _ _).2 (h.trans (congrArg ('+' :: ·) hdigits))⟩

/-- **The numbers that are read** are those that a text writes, below the bound. -/
theorem parseUnsigned_eq_some_iff {bound n : ℕ} {text : String} :
    parseUnsigned bound text = some n ↔ IsNumeral text n ∧ n < bound := by
  rw [isNumeral_iff, parseUnsigned]
  split
  · rename_i h
    simp [h]
  · rename_i hne
    rw [decimalBelow?_eq, Option.filter_eq_some_iff, decimalValue?_zero_eq_some_iff hne,
      decide_eq_true_eq]

/-- There are no letters in a numeral. -/
theorem IsNumeral.no_letters {text : String} {n : ℕ} (h : IsNumeral text n) :
    ∀ c ∈ text.toList, c.toNat < 'A'.toNat := by
  have h0 : '0'.toNat = 48 := rfl
  have hA : 'A'.toNat = 65 := rfl
  obtain ⟨zeros, hdigits⟩ := isNumeral_iff.1 h
  have hrow : ∀ c ∈ unsignedDigits text.toList, c.toNat < 'A'.toNat := fun c hc => by
    rw [hdigits] at hc
    have hlt := (digitChar_of_isDigit (isDigit_of_mem_zeros hc)).1
    omega
  intro c hc
  rcases unsignedDigits_cases text.toList with htext | htext
  · rw [htext] at hc
    exact hrow c hc
  · rw [htext] at hc
    rcases List.mem_cons.1 hc with rfl | hc
    · decide
    · exact hrow c hc

/-- A numeral is not changed in lower case, and nothing becomes a numeral. -/
theorem isNumeral_lower {text : String} {n : ℕ} : IsNumeral (lower text) n ↔ IsNumeral text n := by
  constructor
  · intro h
    rwa [(alike_lower text).eq_of_no_letters h.no_letters]
  · intro h
    rwa [(alike_lower text).symm.eq_of_no_letters h.no_letters]

/-! ### One text after the other -/

/-- What a reading takes and what it refuses: a text is `read` for a meaning, which is `put` to the
result so far, or it is refused with an error. -/
structure Reads {α β γ ε : Type} (step : β → α → Except ε β) (read : α → γ → Prop)
    (refuse : α → ε → Prop) (put : β → γ → β) : Prop where
  taken : ∀ {b a c}, read a c → step b a = .ok (put b c)
  refused : ∀ {b a e}, refuse a e → step b a = .error e
  total : ∀ a, (∃ c, read a c) ∨ ∃ e, refuse a e

theorem exists_forall₂_iff {α γ : Type} {read : α → γ → Prop} {texts : List α} :
    (∃ meanings, List.Forall₂ read texts meanings) ↔ ∀ a ∈ texts, ∃ c, read a c := by
  induction texts with
  | nil => simp
  | cons a texts ih =>
      rw [List.forall_mem_cons, ← ih]
      constructor
      · rintro ⟨_, hreads⟩
        cases hreads with
        | cons hread hreads => exact ⟨⟨_, hread⟩, _, hreads⟩
      · rintro ⟨⟨c, hread⟩, meanings, hreads⟩
        exact ⟨c :: meanings, .cons hread hreads⟩

namespace Reads

variable {α β γ ε : Type} {step : β → α → Except ε β} {read : α → γ → Prop}
  {refuse : α → ε → Prop} {put : β → γ → β}

theorem step_eq_ok_iff (h : Reads step read refuse put) {b b' : β} {a : α} :
    step b a = .ok b' ↔ ∃ c, read a c ∧ put b c = b' := by
  constructor
  · intro hstep
    rcases h.total a with ⟨c, hc⟩ | ⟨e, he⟩
    · rw [h.taken hc] at hstep
      exact ⟨c, hc, Except.ok.inj hstep⟩
    · rw [h.refused he] at hstep
      cases hstep
  · rintro ⟨c, hc, rfl⟩
    exact h.taken hc

theorem step_eq_error_iff (h : Reads step read refuse put) {b : β} {a : α} {e : ε} :
    step b a = .error e ↔ refuse a e := by
  constructor
  · intro hstep
    rcases h.total a with ⟨c, hc⟩ | ⟨e', he⟩
    · rw [h.taken hc] at hstep
      cases hstep
    · rw [h.refused he] at hstep
      rwa [← Except.error.inj hstep]
  · exact h.refused

theorem not_read (h : Reads step read refuse put) (b : β) {a : α} {e : ε} (he : refuse a e)
    (c : γ) : ¬read a c := by
  intro hc
  have hboth := (h.taken hc).symm.trans (h.refused (b := b) he)
  cases hboth

/-- **All texts are read**, and their meanings are put together in order. -/
theorem foldlM_eq_ok_iff (h : Reads step read refuse put) {b b' : β} {texts : List α} :
    texts.foldlM step b = .ok b' ↔
      ∃ meanings, List.Forall₂ read texts meanings ∧ meanings.foldl put b = b' := by
  induction texts generalizing b with
  | nil => simp [pure, Except.pure]
  | cons a texts ih =>
      rw [List.foldlM_cons]
      constructor
      · intro hfold
        cases hstep : step b a with
        | error e =>
            rw [hstep] at hfold
            cases hfold
        | ok b₁ =>
            rw [hstep] at hfold
            obtain ⟨c, hread, rfl⟩ := h.step_eq_ok_iff.1 hstep
            obtain ⟨meanings, hreads, hput⟩ := ih.1 hfold
            exact ⟨c :: meanings, .cons hread hreads, hput⟩
      · rintro ⟨_, hreads, hput⟩
        cases hreads with
        | cons hread hreads =>
            rw [h.taken hread]
            exact ih.2 ⟨_, hreads, hput⟩

/-- **The first text that is refused** gives the error. -/
theorem foldlM_eq_error_iff (h : Reads step read refuse put) {b : β} {e : ε} {texts : List α} :
    texts.foldlM step b = .error e ↔
      ∃ before a behind, texts = before ++ a :: behind ∧ (∀ x ∈ before, ∃ c, read x c) ∧
        refuse a e := by
  induction texts generalizing b with
  | nil => simp [pure, Except.pure]
  | cons a texts ih =>
      rw [List.foldlM_cons]
      constructor
      · intro hfold
        cases hstep : step b a with
        | error e₁ =>
            rw [hstep] at hfold
            cases hfold
            exact ⟨[], a, texts, rfl, nofun, h.step_eq_error_iff.1 hstep⟩
        | ok b₁ =>
            rw [hstep] at hfold
            obtain ⟨c, hread, -⟩ := h.step_eq_ok_iff.1 hstep
            obtain ⟨before, x, behind, rfl, hbefore, hx⟩ := ih.1 hfold
            exact ⟨a :: before, x, behind, rfl, List.forall_mem_cons.2 ⟨⟨c, hread⟩, hbefore⟩, hx⟩
      · rintro ⟨before, x, behind, heq, hbefore, hx⟩
        cases before with
        | nil =>
            obtain ⟨rfl, rfl⟩ := List.cons.inj heq
            rw [h.refused hx]
            rfl
        | cons y before =>
            obtain ⟨rfl, rfl⟩ := List.cons.inj heq
            obtain ⟨⟨c, hread⟩, hbefore⟩ := List.forall_mem_cons.1 hbefore
            rw [h.taken hread]
            exact ih.2 ⟨before, x, behind, rfl, hbefore, hx⟩

/-- All goes well exactly if each text can be read. -/
theorem exists_ok_iff (h : Reads step read refuse put) {b : β} {texts : List α} :
    (∃ b', texts.foldlM step b = .ok b') ↔ ∀ a ∈ texts, ∃ c, read a c := by
  simp only [h.foldlM_eq_ok_iff, ← exists_forall₂_iff]
  exact ⟨fun ⟨_, meanings, hreads, _⟩ => ⟨meanings, hreads⟩,
    fun ⟨meanings, hreads⟩ => ⟨_, meanings, hreads, rfl⟩⟩

theorem exists_error_iff (h : Reads step read refuse put) {b : β} {texts : List α} :
    (∃ e, texts.foldlM step b = .error e) ↔ ∃ a ∈ texts, ∀ c, ¬read a c := by
  have hok : (∃ b', texts.foldlM step b = .ok b') ↔ _ := h.exists_ok_iff
  cases hfold : texts.foldlM step b with
  | ok b' =>
      have hall := hok.1 ⟨b', hfold⟩
      refine iff_of_false (by simp) ?_
      rintro ⟨a, ha, hnone⟩
      obtain ⟨c, hc⟩ := hall a ha
      exact hnone c hc
  | error e =>
      refine iff_of_true ⟨e, rfl⟩ (Classical.byContradiction fun hnot => ?_)
      simp only [not_exists, not_and, not_forall, not_not] at hnot
      obtain ⟨b', hb'⟩ := hok.2 hnot
      rw [hfold] at hb'
      cases hb'

/-- Neighbours whose meanings are put together in any order can change places. -/
theorem foldlM_swap (h : Reads step read refuse put) {a a' : α} {c c' : γ} (ha : read a c)
    (ha' : read a' c') (hcomm : ∀ b, put (put b c) c' = put (put b c') c) (before behind : List α)
    (b : β) :
    (before ++ a :: a' :: behind).foldlM step b = (before ++ a' :: a :: behind).foldlM step b := by
  have htail : ∀ b, (a :: a' :: behind).foldlM step b = (a' :: a :: behind).foldlM step b := by
    intro b
    simp only [List.foldlM_cons, h.taken ha, h.taken ha']
    exact congrArg (List.foldlM step · behind) (hcomm b)
  rw [List.foldlM_append, List.foldlM_append]
  exact congrArg _ (funext htail)

end Reads

end Tracepoint.Text
