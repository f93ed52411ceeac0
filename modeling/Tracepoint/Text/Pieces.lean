/-
**The pieces of a list.**

A list is written with a separator between its pieces.  There is always one piece more than there
are separators, so that an empty text has one piece, the empty one.

Main definitions:

* `Tracepoint.Text.splitAt` — the pieces between the separators;
* `Tracepoint.Text.joinWith` — the pieces with separators between them.

Main results:

* `Tracepoint.Text.joinWith_splitAt` — nothing but the separators is lost;
* `Tracepoint.Text.not_mem_of_mem_splitAt` — no piece holds a separator.
-/

set_option relaxedAutoImplicit false
set_option autoImplicit false

namespace Tracepoint.Text

/-- The pieces between the separators. -/
def splitAt (sep : Char) : List Char → List (List Char)
  | [] => [[]]
  | c :: cs =>
      if c = sep then [] :: splitAt sep cs
      else
        match splitAt sep cs with
        | [] => [[c]]
        | piece :: rest => (c :: piece) :: rest

/-- The pieces with a separator between any two neighbours. -/
def joinWith (sep : Char) : List (List Char) → List Char
  | [] => []
  | [piece] => piece
  | piece :: rest => piece ++ sep :: joinWith sep rest

@[simp] theorem splitAt_nil (sep : Char) : splitAt sep [] = [[]] := rfl

theorem splitAt_ne_nil (sep : Char) (cs : List Char) : splitAt sep cs ≠ [] := by
  cases cs with
  | nil => simp
  | cons c cs =>
      unfold splitAt
      split
      · simp
      · split <;> simp

@[simp] theorem joinWith_singleton (sep : Char) (piece : List Char) :
    joinWith sep [piece] = piece := rfl

theorem joinWith_cons {sep : Char} {piece : List Char} {rest : List (List Char)}
    (h : rest ≠ []) : joinWith sep (piece :: rest) = piece ++ sep :: joinWith sep rest := by
  cases rest with
  | nil => exact absurd rfl h
  | cons p ps => rfl

/-- The pieces, joined again, are the text. -/
theorem joinWith_splitAt (sep : Char) (cs : List Char) : joinWith sep (splitAt sep cs) = cs := by
  induction cs with
  | nil => rfl
  | cons c cs ih =>
      unfold splitAt
      split
      · next h => rw [joinWith_cons (splitAt_ne_nil sep cs), ih, h]; rfl
      · split
        · next hs => exact absurd hs (splitAt_ne_nil sep cs)
        · next piece rest hs =>
            rw [hs] at ih
            cases rest with
            | nil => rw [← ih]; rfl
            | cons p ps =>
                rw [joinWith_cons (by simp)] at ih
                rw [joinWith_cons (by simp), ← ih]
                rfl

/-- No piece holds a separator. -/
theorem not_mem_of_mem_splitAt {sep : Char} {cs piece : List Char}
    (h : piece ∈ splitAt sep cs) : sep ∉ piece := by
  induction cs generalizing piece with
  | nil => simp_all
  | cons c cs ih =>
      unfold splitAt at h
      split at h
      · rcases List.mem_cons.1 h with rfl | h
        · simp
        · exact ih h
      · next hc =>
          split at h
          · next hs => exact absurd hs (splitAt_ne_nil sep cs)
          · next p ps hs =>
              rw [hs] at ih
              rcases List.mem_cons.1 h with rfl | h
              · have := ih List.mem_cons_self
                simp only [List.mem_cons, not_or]
                exact ⟨fun e => hc e.symm, this⟩
              · exact ih (List.mem_cons_of_mem _ h)

end Tracepoint.Text
