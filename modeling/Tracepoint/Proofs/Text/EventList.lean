/-
**Lists of events are read exactly.**

A list of events is written as words with commas between them.  Blanks around a word do not count,
nor does the case of its letters; nothing may stand between two commas, and one word stands for all
events together.  This module says for every text whether it is such a list, which events it lists,
and otherwise which piece of it is told to be no event: the first that is none.

A list is read piece by piece, so what one piece comes to is all there is to know; the rest is the
reading of texts one after the other.

Main definitions:

* `Tracepoint.EventSet.Legible`, `Tracepoint.EventSet.Names` — a piece that is accepted, and the
  events that it names;
* `Tracepoint.EventSet.Lists` — all pieces of a text are accepted, and a set has the events that
  they name;
* `Tracepoint.EventSet.FirstIllegible` — the first piece of a text that is not accepted;
* `Tracepoint.EventSet.SameWords` — two texts have the same words, up to the case of letters.

Main results:

* `Tracepoint.EventSet.parse_eq_ok_iff`, `Tracepoint.EventSet.parse_eq_error_iff` — **what is read
  and what is refused**;
* `Tracepoint.EventSet.event_lists_read_exactly` — that, and what does not matter in a list.
-/

import Mathlib.Data.List.Nodup
import Tracepoint.EventSet
import Tracepoint.Proofs.Text.Reading

set_option relaxedAutoImplicit false
set_option autoImplicit false

namespace Tracepoint

open Text (Alike trim)

/-! ### Names of events -/

namespace Event

@[simp] theorem trim_name (e : Event) : trim e.name = e.name := by
  cases e <;> rfl

theorem comma_not_mem_name (e : Event) : ',' ∉ e.name.toList := by
  cases e <;> decide

/-- No two events have the same name, whatever the case of its letters. -/
theorem alike_name_iff {e f : Event} : Alike e.name f.name ↔ e = f := by
  have hnodup : (all.map fun g => Text.lower g.name).Nodup := by decide
  rw [Text.alike_iff]
  exact ⟨List.inj_on_of_nodup_map hnodup (mem_all e) (mem_all f), fun h => by rw [h]⟩

/-- The event of a text has what is left of it for a name. -/
theorem parse?_eq_some_iff {text : String} {e : Event} :
    parse? text = some e ↔ Alike (trim text) e.name := by
  have hfound : ∀ {f : Event}, parse? text = some f → Alike f.name (trim text) := fun {f} h => by
    unfold parse? at h
    have hsame := List.find?_some h
    exact Text.sameIgnoringCase_iff_alike.1 hsame
  constructor
  · intro h
    exact (hfound h).symm
  · intro h
    cases hparse : parse? text with
    | none =>
        unfold parse? at hparse
        exact absurd (Text.sameIgnoringCase_iff_alike.2 h.symm)
          (List.find?_eq_none.1 hparse e (mem_all e))
    | some f => rw [alike_name_iff.1 ((hfound hparse).trans h)]

end Event

namespace EventSet

/-! ### One piece -/

/-- What is left of the piece without the blanks around it is the word for all events, or the name
of this one. -/
def Names (piece : String) (e : Event) : Prop :=
  Alike (trim piece) "all" ∨ Alike (trim piece) e.name

/-- Nothing is left of the piece without the blanks around it, or it names events. -/
def Legible (piece : String) : Prop :=
  trim piece = "" ∨ Alike (trim piece) "all" ∨ ∃ e : Event, Alike (trim piece) e.name

/-- The piece is accepted, and the set has the events that it names, and nothing else. -/
def Means (piece : String) (s : EventSet) : Prop :=
  Legible piece ∧ s.NamesOnlyEvents ∧ ∀ e, s.has e = true ↔ Names piece e

@[simp] theorem names_trim {piece : String} {e : Event} : Names (trim piece) e ↔ Names piece e := by
  rw [Names, Names, Text.trim_trim]

theorem legible_iff {piece : String} : Legible piece ↔ trim piece = "" ∨ ∃ e, Names piece e := by
  constructor
  · rintro (h | h | ⟨e, h⟩)
    · exact Or.inl h
    · exact Or.inr ⟨.call, Or.inl h⟩
    · exact Or.inr ⟨e, Or.inr h⟩
  · rintro (h | ⟨e, h | h⟩)
    · exact Or.inl h
    · exact Or.inr (Or.inl h)
    · exact Or.inr (Or.inr ⟨e, h⟩)

/-- A piece of blanks names nothing. -/
theorem not_names_of_blank {piece : String} (h : trim piece = "") (e : Event) : ¬Names piece e := by
  rw [Names, h, Text.alike_iff, Text.alike_iff]
  cases e <;> decide

/-- The name of an event names no other. -/
theorem names_name_iff {e f : Event} : Names e.name f ↔ e = f := by
  have hall : ¬Alike e.name "all" := by
    rw [Text.alike_iff]
    cases e <;> decide
  rw [Names, Event.trim_name, or_iff_right hall, Event.alike_name_iff]

theorem Means.unique {piece : String} {s t : EventSet} (hs : Means piece s) (ht : Means piece t) :
    s = t :=
  hs.2.1.ext ht.2.1 fun e => Bool.eq_iff_iff.2 ((hs.2.2 e).trans (ht.2.2 e).symm)

/-- A word that is accepted stands for the events that it names, and any other is refused. -/
theorem parsePiece_cases {word : String} (h : trim word = word) :
    (∃ s, parsePiece word = .ok s ∧ (∃ e, Names word e) ∧ s.NamesOnlyEvents ∧
        ∀ e, s.has e = true ↔ Names word e) ∨
      parsePiece word = .error ⟨word⟩ ∧ ∀ e, ¬Names word e := by
  unfold parsePiece Names
  rw [h]
  by_cases hall : Text.sameIgnoringCase word "all" = true
  · have halike := Text.sameIgnoringCase_iff_alike.1 hall
    rw [if_pos hall]
    exact Or.inl ⟨full, rfl, ⟨.call, Or.inl halike⟩, namesOnlyEvents_full,
      fun e => by simp [halike]⟩
  · have halike := fun h => hall (Text.sameIgnoringCase_iff_alike.2 h)
    rw [if_neg hall, Event.parse]
    cases hparse : Event.parse? word with
    | some e =>
        have he := Event.parse?_eq_some_iff.1 hparse
        rw [h] at he
        refine Or.inl ⟨single e, rfl, ⟨e, Or.inr he⟩, namesOnlyEvents_single e, fun f => ?_⟩
        rw [has_single, decide_eq_true_eq, ← Event.alike_name_iff]
        exact ⟨fun hf => Or.inr (he.trans hf), fun hf => he.symm.trans (hf.resolve_left halike)⟩
    | none =>
        refine Or.inr ⟨rfl, fun e he => ?_⟩
        rcases he with he | he
        · exact halike he
        · rw [← h, ← Event.parse?_eq_some_iff, hparse] at he
          cases he

/-- A set after one more piece of a list. -/
def add (s : EventSet) (piece : String) : Except UnknownEvent EventSet :=
  if trim piece = "" then .ok s else return s ∪ (← parsePiece (trim piece))

/-- A piece adds what it means, or is told to be no event. -/
theorem add_cases (piece : String) :
    (∃ t, Means piece t ∧ ∀ s, add s piece = .ok (s ∪ t)) ∨
      ¬Legible piece ∧ ∀ s, add s piece = .error ⟨trim piece⟩ := by
  unfold Means add
  rw [legible_iff]
  by_cases hblank : trim piece = ""
  · refine Or.inl ⟨∅, ⟨Or.inl hblank, namesOnlyEvents_empty, fun e => ?_⟩, fun s => ?_⟩
    · simp [not_names_of_blank hblank]
    · rw [if_pos hblank, union_empty]
  · have hcases := parsePiece_cases (Text.trim_trim piece)
    simp only [names_trim] at hcases
    simp only [if_neg hblank]
    rcases hcases with ⟨t, ht, hnames, hhas⟩ | ⟨herr, hnone⟩
    · exact Or.inl ⟨t, ⟨Or.inr hnames, hhas⟩, fun s => by rw [ht]; rfl⟩
    · refine Or.inr ⟨?_, fun s => by rw [herr]; rfl⟩
      rintro (h | ⟨e, he⟩)
      · exact hblank h
      · exact hnone e he

theorem exists_means_iff {piece : String} : (∃ s, Means piece s) ↔ Legible piece := by
  constructor
  · rintro ⟨s, hs⟩
    exact hs.1
  · intro h
    rcases add_cases piece with ⟨s, hs, -⟩ | ⟨hnot, -⟩
    · exact ⟨s, hs⟩
    · exact absurd h hnot

/-- What one piece of a list adds to a set, and why a piece is refused. -/
theorem reads_add :
    Text.Reads add Means (fun piece err => ¬Legible piece ∧ err = ⟨trim piece⟩) (· ∪ ·) where
  taken {s piece t} ht := by
    rcases add_cases piece with ⟨t', ht', hadd⟩ | ⟨hnot, -⟩
    · rw [hadd, ht.unique ht']
    · exact absurd ht.1 hnot
  refused {s piece err} herr := by
    rcases add_cases piece with ⟨t, ht, -⟩ | ⟨-, hadd⟩
    · exact absurd ht.1 herr.1
    · rw [hadd, herr.2]
  total piece := by
    by_cases h : Legible piece
    · exact Or.inl (exists_means_iff.2 h)
    · exact Or.inr ⟨_, h, rfl⟩

/-! ### A whole list -/

/-- All pieces of a list are accepted, and the set has the events that they name, and nothing
else. -/
def Lists (list : String) (s : EventSet) : Prop :=
  (∀ piece ∈ Text.pieces ',' list, Legible piece) ∧ s.NamesOnlyEvents ∧
    ∀ e, s.has e = true ↔ ∃ piece ∈ Text.pieces ',' list, Names piece e

/-- The first piece of a list that is not accepted. -/
def FirstIllegible (list piece : String) : Prop :=
  ∃ before behind, Text.pieces ',' list = before ++ piece :: behind ∧
    (∀ p ∈ before, Legible p) ∧ ¬Legible piece

theorem parse_eq_foldlM (list : String) : parse list = (Text.pieces ',' list).foldlM add ∅ := by
  have hstep : ∀ s piece, add s piece =
      if decide (trim piece ≠ "") = true then do return s ∪ (← parsePiece (trim piece))
      else pure s := by
    intro s piece
    unfold add
    by_cases h : trim piece = ""
    · rw [if_pos h, if_neg (by simp [h])]
      rfl
    · rw [if_neg h, if_pos (by simp [h])]
  rw [parse, pieces, Text.splitAt_eq_splitOn, List.foldlM_filter, Text.pieces]
  simp only [List.foldlM_map, hstep]

/-- The union of what pieces mean has the events that one of them names. -/
theorem has_union_iff {pieces : List String} {sets : List EventSet}
    (h : List.Forall₂ Means pieces sets) (e : Event) :
    (sets.foldl (· ∪ ·) ∅).has e = true ↔ ∃ piece ∈ pieces, Names piece e := by
  have hunion : (sets.foldl (· ∪ ·) ∅).has e = _ := has_foldl_union id e sets ∅
  rw [hunion, has_empty, Bool.false_or, List.any_eq_true]
  clear hunion
  induction h with
  | nil => simp
  | cons hpiece _ ih =>
      rw [List.exists_mem_cons_iff, List.exists_mem_cons_iff]
      exact or_congr (hpiece.2.2 e) ih

/-- The union of what pieces mean names only events. -/
theorem namesOnlyEvents_union {pieces : List String} {sets : List EventSet}
    (h : List.Forall₂ Means pieces sets) : (sets.foldl (· ∪ ·) ∅).NamesOnlyEvents := by
  have hunion : ∀ s : EventSet, s.NamesOnlyEvents →
      (sets.foldl (· ∪ ·) s).NamesOnlyEvents := by
    induction h with
    | nil => exact fun s hs => hs
    | cons hpiece _ ih => exact fun s hs => ih _ (hs.union hpiece.2.1)
  exact hunion ∅ namesOnlyEvents_empty

/-- **The lists that are read**, and the set that is read from each. -/
theorem parse_eq_ok_iff {list : String} {s : EventSet} : parse list = .ok s ↔ Lists list s := by
  rw [parse_eq_foldlM, reads_add.foldlM_eq_ok_iff]
  constructor
  · rintro ⟨sets, hsets, rfl⟩
    refine ⟨fun piece hpiece => ?_, namesOnlyEvents_union hsets, has_union_iff hsets⟩
    exact exists_means_iff.1 (Text.exists_forall₂_iff.1 ⟨sets, hsets⟩ piece hpiece)
  · rintro ⟨hlegible, hknown, hs⟩
    obtain ⟨sets, hsets⟩ := Text.exists_forall₂_iff.2 fun piece hpiece =>
      exists_means_iff.2 (hlegible piece hpiece)
    refine ⟨sets, hsets, (namesOnlyEvents_union hsets).ext hknown fun e => ?_⟩
    rw [Bool.eq_iff_iff, has_union_iff hsets, hs]

/-- **The first piece that is not accepted** is told. -/
theorem parse_eq_error_iff {list : String} {err : UnknownEvent} :
    parse list = .error err ↔ ∃ piece, FirstIllegible list piece ∧ err = ⟨trim piece⟩ := by
  rw [parse_eq_foldlM, reads_add.foldlM_eq_error_iff]
  simp only [exists_means_iff]
  constructor
  · rintro ⟨before, piece, behind, heq, hbefore, hnot, herr⟩
    exact ⟨piece, ⟨before, behind, heq, hbefore, hnot⟩, herr⟩
  · rintro ⟨piece, ⟨before, behind, heq, hbefore, hnot⟩, herr⟩
    exact ⟨before, piece, behind, heq, hbefore, hnot, herr⟩

theorem exists_parse_eq_ok_iff {list : String} :
    (∃ s, parse list = .ok s) ↔ ∀ piece ∈ Text.pieces ',' list, Legible piece := by
  rw [parse_eq_foldlM, reads_add.exists_ok_iff]
  simp only [exists_means_iff]

/-! ### What does not matter in a list -/

/-- Two texts have the same words, whatever their order, their number, the case of their letters,
the blanks around them and the pieces without a word. -/
def SameWords (list list' : String) : Prop :=
  ∀ word, word ≠ "" →
    ((∃ piece ∈ Text.pieces ',' list, Alike (trim piece) word) ↔
      ∃ piece ∈ Text.pieces ',' list', Alike (trim piece) word)

theorem SameWords.symm {list list' : String} (h : SameWords list list') : SameWords list' list :=
  fun word hne => (h word hne).symm

theorem SameWords.exists_names_iff {list list' : String} (h : SameWords list list') (e : Event) :
    (∃ piece ∈ Text.pieces ',' list, Names piece e) ↔
      ∃ piece ∈ Text.pieces ',' list', Names piece e := by
  have hname : e.name ≠ "" := by cases e <;> decide
  simp only [Names, and_or_left, exists_or]
  rw [h "all" (by decide), h e.name hname]

/-- Whether a piece is accepted depends on its word only. -/
theorem Legible.of_alike {piece piece' : String} (h : Legible piece)
    (hword : Alike (trim piece) (trim piece')) (hne : trim piece' ≠ "") : Legible piece' := by
  rcases h with h | h | ⟨e, h⟩
  · rw [h] at hword
    exact absurd (hword.symm.eq_of_no_letters (by simp)) hne
  · exact Or.inr (Or.inl (hword.symm.trans h))
  · exact Or.inr (Or.inr ⟨e, hword.symm.trans h⟩)

theorem SameWords.lists {list list' : String} (h : SameWords list list') {s : EventSet}
    (hs : Lists list s) : Lists list' s := by
  refine ⟨fun piece hpiece => ?_, hs.2.1, fun e => (hs.2.2 e).trans (h.exists_names_iff e)⟩
  by_cases hblank : trim piece = ""
  · exact Or.inl hblank
  -- the same word stands in the other list, where it is accepted
  · obtain ⟨piece₀, hpiece₀, halike⟩ :=
      (h (trim piece) hblank).2 ⟨piece, hpiece, Text.alike_iff.2 rfl⟩
    exact (hs.1 piece₀ hpiece₀).of_alike halike hblank

/-! ### The names of a set -/

/-- The names of the events of a set, joined by commas, list the set. -/
theorem lists_names {s : EventSet} (h : s.NamesOnlyEvents) :
    Lists (",".intercalate (s.toList.map Event.name)) s := by
  have hempty : Text.pieces ',' "" = [""] := by decide
  have hblank : trim "" = "" := rfl
  by_cases hnil : s.toList = []
  -- nothing is joined then, and what is left is one empty piece
  · have hnone : ∀ e, s.has e = false := fun e => by
      rw [← Bool.not_eq_true, ← mem_toList, hnil]
      exact List.not_mem_nil
    rw [hnil, List.map_nil, String.intercalate_nil, Lists, hempty]
    simp only [List.mem_singleton, forall_eq, exists_eq_left, hnone]
    exact ⟨Or.inl hblank, h,
      fun e => iff_of_false Bool.false_ne_true (not_names_of_blank hblank e)⟩
  · have hcomma : ∀ word ∈ s.toList.map Event.name, ',' ∉ word.toList := by
      rw [List.forall_mem_map]
      exact fun e _ => e.comma_not_mem_name
    rw [Lists, Text.pieces_intercalate rfl hcomma fun h => hnil (List.map_eq_nil_iff.1 h),
      List.forall_mem_map]
    refine ⟨fun e _ => legible_iff.2 (Or.inr ⟨e, names_name_iff.2 rfl⟩), h, fun e => ?_⟩
    simp [names_name_iff]

/-- **Lists of events are read exactly.**  A text is read if each of its pieces is accepted, and
then for the set of the events that they name and nothing else; otherwise the first piece that is
not accepted is told, without the blanks around it.  What is read from a text depends on its words
only, up to the case of letters, and each set of events is what is read from their names. -/
theorem event_lists_read_exactly (list : String) :
    ((∃ s, parse list = .ok s) ↔ ∀ piece ∈ Text.pieces ',' list, Legible piece) ∧
      (∀ s, parse list = .ok s → s.NamesOnlyEvents ∧
        ∀ e, s.has e = true ↔ ∃ piece ∈ Text.pieces ',' list, Names piece e) ∧
      (∀ err, parse list = .error err ↔
        ∃ piece, FirstIllegible list piece ∧ err = ⟨trim piece⟩) ∧
      (∀ list', SameWords list list' → ∀ s, parse list = .ok s ↔ parse list' = .ok s) ∧
      ∀ s : EventSet, s.NamesOnlyEvents →
        parse (",".intercalate (s.toList.map Event.name)) = .ok s := by
  refine ⟨exists_parse_eq_ok_iff, fun s hs => (parse_eq_ok_iff.1 hs).2,
    fun err => parse_eq_error_iff, fun list' hwords s => ?_,
    fun s hs => parse_eq_ok_iff.2 (lists_names hs)⟩
  rw [parse_eq_ok_iff, parse_eq_ok_iff]
  exact ⟨hwords.lists, hwords.symm.lists⟩

example : parse " line,, Call ,LINE" = .ok (single .call ∪ single .line) := rfl

example : parse "call, ticks ,," = .error ⟨"ticks"⟩ := rfl

end EventSet

end Tracepoint
