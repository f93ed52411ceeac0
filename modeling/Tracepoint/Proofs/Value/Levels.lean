/-
**How deep lists are looked into.**

Comparing and showing values look into lists, whose items may be lists again, up to some number of
levels.  A list that is looked into is open meanwhile, and is not looked into a second time.  So
each level opens an address of the heap that was not open before, and as many levels as there are
such addresses are enough: more of them make no difference.

Main definitions:

* `Tracepoint.Heap.unopened` — the number of lists that are not open.

Main results:

* `Tracepoint.Heap.sameList_levels`, `Tracepoint.Heap.renderList_levels` — **levels beyond the
  number of lists that are not open make no difference**.
-/

import Mathlib.Data.Finset.Card
import Tracepoint.Value.Equality
import Tracepoint.Value.Shown

set_option relaxedAutoImplicit false
set_option autoImplicit false

namespace Tracepoint.Heap

/-- The number of lists of the heap that are not open. -/
def unopened (h : Heap) (opened : List ℕ) : ℕ :=
  (Finset.range h.lists.size \ opened.toFinset).card

section Opening

variable {h : Heap} {a : ℕ} {opened : List ℕ}

theorem unopened_nil (h : Heap) : h.unopened [] = h.lists.size := by
  simp [unopened]

theorem unopened_le (h : Heap) (opened : List ℕ) : h.unopened opened ≤ h.lists.size := by
  unfold unopened
  exact (Finset.card_le_card Finset.sdiff_subset).trans (by simp)

theorem unopened_cons_le (h : Heap) (a : ℕ) (opened : List ℕ) :
    h.unopened (a :: opened) ≤ h.unopened opened := by
  unfold unopened
  rw [List.toFinset_cons, Finset.sdiff_insert]
  exact Finset.card_erase_le

/-- To open a list leaves fewer of them. -/
theorem unopened_cons_lt (ha : a < h.lists.size) (hno : a ∉ opened) :
    h.unopened (a :: opened) < h.unopened opened := by
  unfold unopened
  rw [List.toFinset_cons, Finset.sdiff_insert]
  refine Finset.card_erase_lt_of_mem (Finset.mem_sdiff.2 ⟨Finset.mem_range.2 ha, ?_⟩)
  rwa [List.mem_toFinset]

/-- To open two lists leaves fewer of them, if the first of them was not open. -/
theorem unopened_cons_cons_lt (ha : a < h.lists.size) (hno : a ∉ opened) (b : ℕ) :
    h.unopened (a :: b :: opened) < h.unopened opened := by
  have hcons : h.unopened (a :: b :: opened) = h.unopened (b :: a :: opened) := by
    unfold unopened
    rw [List.toFinset_cons, List.toFinset_cons, Finset.insert_comm, ← List.toFinset_cons,
      ← List.toFinset_cons]
  rw [hcons]
  exact Nat.lt_of_le_of_lt (h.unopened_cons_le b _) (unopened_cons_lt ha hno)

/-- Where there is no list, there are no items. -/
theorem items_of_le (ha : h.lists.size ≤ a) : h.items a = #[] := by
  rw [items, Array.getElem?_eq_none ha]
  rfl

end Opening

/-- **Levels beyond the number of lists that are not open** make no difference to a comparison. -/
theorem sameList_levels (h : Heap) {levels levels' : ℕ} {opened : List ℕ}
    (hl : h.unopened opened < levels) (hl' : h.unopened opened < levels') :
    h.sameList levels opened = h.sameList levels' opened := by
  induction levels generalizing levels' opened with
  | zero => cases hl
  | succ levels ih =>
      cases levels' with
      | zero => cases hl'
      | succ levels' =>
          funext a b
          rw [sameList, sameList]
          cases hopen : opened.contains a with
          | true => rfl
          | false =>
              have hno : a ∉ opened := by
                intro hmem
                rw [List.contains_iff_mem.2 hmem] at hopen
                cases hopen
              rcases Nat.lt_or_ge a h.lists.size with ha | ha
              · -- the next level opens this list, and perhaps another one
                have hfewer := unopened_cons_cons_lt ha hno b
                have hbelow : h.sameList levels (a :: b :: opened) =
                    h.sameList levels' (a :: b :: opened) := ih (by omega) (by omega)
                rw [hbelow]
              · -- there are no items to be compared
                rw [items_of_le ha]
                cases hb : (h.items b).toList with
                | nil => rfl
                | cons v vs =>
                    have hsize : ((#[] : Array Value).size == (h.items b).size) = false := by
                      rw [← Array.length_toList, ← Array.length_toList, hb]
                      rfl
                    rw [hsize, Bool.and_false, Bool.false_and, Bool.false_and]

/-- **Levels beyond the number of lists that are not open** make no difference to what is shown. -/
theorem renderList_levels (h : Heap) {levels levels' : ℕ} {opened : List ℕ}
    (hl : h.unopened opened < levels) (hl' : h.unopened opened < levels') :
    h.renderList levels opened = h.renderList levels' opened := by
  induction levels generalizing levels' opened with
  | zero => cases hl
  | succ levels ih =>
      cases levels' with
      | zero => cases hl'
      | succ levels' =>
          funext a
          rw [renderList, renderList]
          split
          · rfl
          · rename_i hopen
            have hno : a ∉ opened := fun hmem => hopen (List.contains_iff_mem.2 hmem)
            rcases Nat.lt_or_ge a h.lists.size with ha | ha
            · have hfewer := unopened_cons_lt ha hno
              have hbelow :
                  h.renderList levels (a :: opened) = h.renderList levels' (a :: opened) :=
                ih (by omega) (by omega)
              rw [hbelow]
            · rw [items_of_le ha]
              rfl

end Tracepoint.Heap
