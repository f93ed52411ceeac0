/-
**What equality of values compares.**

Two values are compared through the addresses, so they can be equal only if their unfolded trees are.
Where lists lie within themselves, the comparison comes back to a list that it has open.  It is then
cut off: the open list equals only itself.  Hence values are equal exactly if their trees are and the
comparison is never cut off.

Without lists that lie within themselves it never is.  If the comparison of two values with equal
trees came back to an open list, the tree of that list would be its own subtree, and some list on the
way would lie within itself.  Equality of such values is equality of their trees, and the rule about
open lists makes no difference to them.

Equality of trees is transitive, but being cut off is not a matter of the trees alone.  A list that
holds only itself equals a copy of it, and the copy equals a list that holds another copy; but the
first list and the last one are compared through the first list itself, which is open.  So equality is
transitive as long as the comparison of the first and the last value is not cut off, and only so long.

Main definitions:

* `Tracepoint.Heap.Compares`, `Tracepoint.Heap.CutOff` — the lists that are compared at a position,
  and **a comparison that comes back to an open list**;
* `Tracepoint.Heap.sameListFreely` — equality of lists without regard to what is open.

Main results:

* `Tracepoint.Heap.equalWhile_iff` — **values are equal exactly if their trees are and the comparison
  is not cut off**;
* `Tracepoint.Heap.Grounded.not_cutOff` — where no list lies within itself, it is not;
* `Tracepoint.Heap.structural_of_acyclic` — **equality is structural on acyclic heaps**;
* `Tracepoint.Heap.transitive_unless_cutOff` — **when equality is transitive**.
-/

import Tracepoint.Proofs.Value.Unfolding

set_option relaxedAutoImplicit false
set_option autoImplicit false

namespace Tracepoint.Heap

variable {h : Heap} {v w : Value} {opened : List ℕ}

/-- Equality of values while the lists of `opened` are open. -/
def equalWhile (h : Heap) (opened : List ℕ) (v w : Value) : Bool :=
  v.same (h.sameList (h.lists.size + 1) opened) w

theorem equalWhile_nil (h : Heap) (v w : Value) : h.equalWhile [] v w = h.equal v w := rfl

/-! ### Comparisons that are cut off -/

/-- **At the position `p` the comparison of `v` and `w` comes to the lists `a` and `b`**: it has not
been decided on the way, where one list would have been compared with itself, nor is it here. -/
structure Compares (h : Heap) (v w : Value) (p : List ℕ) (a b : ℕ) : Prop where
  left : h.valueAt? v p = some (.list a)
  right : h.valueAt? w p = some (.list b)
  differ : ∀ q a' b', q <+: p → h.valueAt? v q = some (.list a') →
    h.valueAt? w q = some (.list b') → a' ≠ b'

/-- A list is open when the comparison of `v` and `w` comes to the position `p`: it was open before,
or it stands on the way in one of the values. -/
def OpenAt (h : Heap) (opened : List ℕ) (v w : Value) (p : List ℕ) (a : ℕ) : Prop :=
  a ∈ opened ∨ h.Passes v p a ∨ h.Passes w p a

/-- **The comparison of `v` and `w` is cut off**: it comes to two different lists of which one is
open. -/
def CutOff (h : Heap) (opened : List ℕ) (v w : Value) : Prop :=
  ∃ p a b, h.Compares v w p a b ∧ (h.OpenAt opened v w p a ∨ h.OpenAt opened v w p b)

theorem Compares.symm {p : List ℕ} {a b : ℕ} (hc : h.Compares v w p a b) :
    h.Compares w v p b a :=
  ⟨hc.right, hc.left, fun q a' b' hq hleft hright => (hc.differ q b' a' hq hright hleft).symm⟩

theorem OpenAt.symm {p : List ℕ} {a : ℕ} (ho : h.OpenAt opened v w p a) :
    h.OpenAt opened w v p a :=
  ho.imp_right Or.symm

/-- It does not matter which value stands on which side. -/
theorem CutOff.symm (hc : h.CutOff opened v w) : h.CutOff opened w v := by
  obtain ⟨p, a, b, hcompares, hopen⟩ := hc
  exact ⟨p, b, a, hcompares.symm, hopen.symm.imp OpenAt.symm OpenAt.symm⟩

theorem cutOff_comm : h.CutOff opened v w ↔ h.CutOff opened w v := ⟨.symm, .symm⟩

/-- A value is not compared with itself. -/
theorem not_cutOff_self (h : Heap) (opened : List ℕ) (v : Value) : ¬h.CutOff opened v v := by
  rintro ⟨p, a, b, hcompares, -⟩
  have hsame : Value.list a = .list b :=
    Option.some.inj (hcompares.left.symm.trans hcompares.right)
  exact hcompares.differ p a b List.prefix_rfl hcompares.left hcompares.right
    (Value.list.inj hsame)

theorem compares_nil {a b : ℕ} :
    h.Compares v w [] a b ↔ v = .list a ∧ w = .list b ∧ a ≠ b := by
  constructor
  · intro hc
    exact ⟨Option.some.inj hc.left, Option.some.inj hc.right,
      hc.differ [] a b List.prefix_rfl hc.left hc.right⟩
  · rintro ⟨rfl, rfl, hne⟩
    refine ⟨rfl, rfl, fun q a' b' hq hleft hright => ?_⟩
    obtain rfl := List.prefix_nil.1 hq
    cases hleft
    cases hright
    exact hne

/-- Below its root, a comparison goes on between items at the same index. -/
theorem compares_cons {i a b : ℕ} {p : List ℕ} :
    h.Compares v w (i :: p) a b ↔
      (∀ a' b', v = .list a' → w = .list b' → a' ≠ b') ∧
        ∃ v' w', (h.contents v)[i]? = some v' ∧ (h.contents w)[i]? = some w' ∧
          h.Compares v' w' p a b := by
  constructor
  · intro hc
    refine ⟨fun a' b' hv hw => hc.differ [] a' b' List.nil_prefix (by rw [hv]; rfl)
      (by rw [hw]; rfl), ?_⟩
    obtain ⟨v', hv', hleft⟩ := valueAt?_cons_eq_some.1 hc.left
    obtain ⟨w', hw', hright⟩ := valueAt?_cons_eq_some.1 hc.right
    refine ⟨v', w', hv', hw', hleft, hright, fun q a' b' hq hl hr => ?_⟩
    refine hc.differ (i :: q) a' b' (List.cons_prefix_cons.2 ⟨rfl, hq⟩) ?_ ?_
    · rwa [valueAt?_cons_of_some hv']
    · rwa [valueAt?_cons_of_some hw']
  · rintro ⟨hroot, v', w', hv', hw', hc⟩
    refine ⟨?_, ?_, fun q a' b' hq hl hr => ?_⟩
    · rw [valueAt?_cons_of_some hv', hc.left]
    · rw [valueAt?_cons_of_some hw', hc.right]
    · cases q with
      | nil => exact hroot a' b' (Option.some.inj hl) (Option.some.inj hr)
      | cons j q =>
          obtain ⟨rfl, hprefix⟩ := List.cons_prefix_cons.1 hq
          rw [valueAt?_cons_of_some hv'] at hl
          rw [valueAt?_cons_of_some hw'] at hr
          exact hc.differ q a' b' hprefix hl hr

/-- What is open below the roots is what was open before, with the roots if they are lists. -/
theorem openAt_cons {i c : ℕ} {p : List ℕ} {v' w' : Value} (hv : (h.contents v)[i]? = some v')
    (hw : (h.contents w)[i]? = some w') :
    h.OpenAt opened v w (i :: p) c ↔
      v = .list c ∨ w = .list c ∨ h.OpenAt opened v' w' p c := by
  unfold OpenAt
  rw [passes_cons, passes_cons, hv, hw]
  simp only [Option.some.injEq, exists_eq_left']
  tauto

/-- **The comparison of two lists** is cut off at once, or below with both of them open. -/
theorem cutOff_list {a b : ℕ} (hne : a ≠ b) :
    h.CutOff opened (.list a) (.list b) ↔
      (a ∈ opened ∨ b ∈ opened) ∨ ∃ (i : ℕ) (v w : Value), (h.items a).toList[i]? = some v ∧
        (h.items b).toList[i]? = some w ∧ h.CutOff (a :: b :: opened) v w := by
  have hbelow : ∀ {i c : ℕ} {p : List ℕ} {v w : Value}, (h.items a).toList[i]? = some v →
      (h.items b).toList[i]? = some w →
      (h.OpenAt opened (.list a) (.list b) (i :: p) c ↔ h.OpenAt (a :: b :: opened) v w p c) := by
    intro i c p v w hv hw
    rw [openAt_cons (v := .list a) (w := .list b) hv hw]
    unfold OpenAt
    simp only [Value.list.injEq, List.mem_cons, eq_comm (a := c)]
    tauto
  constructor
  · rintro ⟨p, a', b', hc, hopen⟩
    cases p with
    | nil =>
        obtain ⟨ha, hb, -⟩ := compares_nil.1 hc
        cases ha
        cases hb
        simp only [OpenAt, passes_nil, or_false] at hopen
        exact Or.inl hopen
    | cons i p =>
        obtain ⟨-, v, w, hv, hw, hc⟩ := compares_cons.1 hc
        rw [hbelow hv hw, hbelow hv hw] at hopen
        exact Or.inr ⟨i, v, w, hv, hw, p, a', b', hc, hopen⟩
  · rintro (hopen | ⟨i, v, w, hv, hw, p, a', b', hc, hopen⟩)
    · exact ⟨[], a, b, compares_nil.2 ⟨rfl, rfl, hne⟩, hopen.imp Or.inl Or.inl⟩
    · refine ⟨i :: p, a', b', compares_cons.2 ⟨?_, v, w, hv, hw, hc⟩, ?_⟩
      · rintro _ _ ⟨⟩ ⟨⟩
        exact hne
      · rwa [hbelow hv hw, hbelow hv hw]

/-- **The comparison of two tuples** is cut off if that of two items is. -/
theorem cutOff_tuple {as bs : List Value} :
    h.CutOff opened (.tuple as) (.tuple bs) ↔
      ∃ (i : ℕ) (v w : Value), as[i]? = some v ∧ bs[i]? = some w ∧ h.CutOff opened v w := by
  have hbelow : ∀ {i c : ℕ} {p : List ℕ} {v w : Value}, as[i]? = some v → bs[i]? = some w →
      (h.OpenAt opened (.tuple as) (.tuple bs) (i :: p) c ↔ h.OpenAt opened v w p c) := by
    intro i c p v w hv hw
    rw [openAt_cons (v := .tuple as) (w := .tuple bs) hv hw]
    simp
  constructor
  · rintro ⟨p, a, b, hc, hopen⟩
    cases p with
    | nil => cases (compares_nil.1 hc).1
    | cons i p =>
        obtain ⟨-, v, w, hv, hw, hc⟩ := compares_cons.1 hc
        rw [hbelow hv hw, hbelow hv hw] at hopen
        exact ⟨i, v, w, hv, hw, p, a, b, hc, hopen⟩
  · rintro ⟨i, v, w, hv, hw, p, a, b, hc, hopen⟩
    refine ⟨i :: p, a, b, compares_cons.2 ⟨nofun, v, w, hv, hw, hc⟩, ?_⟩
    rwa [hbelow hv hw, hbelow hv hw]

/-! ### What is equal -/

theorem native_name_inj {f g : Native} : f.name = g.name ↔ f = g := by
  cases f <;> cases g <;> decide

theorem same_iff_node_of_leaf (h : Heap) {lists : ℕ → ℕ → Bool} (hv : v.IsLeaf) :
    v.same lists w = true ↔ h.node v = h.node w := by
  cases v with
  | tuple items => exact hv.elim
  | list a => exact hv.elim
  | native f => cases w <;> simp [Value.same, node, native_name_inj]
  | _ => cases w <;> simp [Value.same, node]

theorem not_cutOff_of_leaf (hv : v.IsLeaf) : ¬h.CutOff opened v w := by
  rintro ⟨p, a, b, hc, -⟩
  cases p with
  | nil =>
      rw [(compares_nil.1 hc).1] at hv
      exact hv.elim
  | cons i p =>
      obtain ⟨-, v', w', hv', -⟩ := compares_cons.1 hc
      rw [contents_of_leaf hv] at hv'
      cases hv'

theorem unfolded_eq_iff_of_leaf (hv : v.IsLeaf) :
    h.unfolded v = h.unfolded w ↔ h.node v = h.node w := by
  rw [unfolded_eq_iff, contents_of_leaf hv]
  simp

theorem same_tuple_iff {lists : ℕ → ℕ → Bool} {as : List Value} :
    (Value.tuple as).same lists w = true ↔
      ∃ bs, w = .tuple bs ∧ as.length = bs.length ∧ Value.sameItems lists as bs = true := by
  cases w <;> simp [Value.same]

section Items

variable {lists : ℕ → ℕ → Bool}

/-- Rows are equal if they are of one length and equal at each index. -/
theorem sameItems_iff {as bs : List Value} :
    Value.sameItems lists as bs = true ↔
      as.length = bs.length ∧ ∀ (i : ℕ) v w, as[i]? = some v → bs[i]? = some w →
        v.same lists w = true := by
  induction as generalizing bs with
  | nil => cases bs <;> simp [Value.sameItems]
  | cons a as ih =>
      cases bs with
      | nil => simp [Value.sameItems]
      | cons b bs =>
          simp only [Value.sameItems, Bool.and_eq_true, ih, List.length_cons, Nat.add_right_cancel_iff]
          constructor
          · rintro ⟨hab, hlength, hrest⟩
            refine ⟨hlength, fun i v w hv hw => ?_⟩
            cases i with
            | zero =>
                cases hv
                cases hw
                exact hab
            | succ i => exact hrest i v w hv hw
          · rintro ⟨hlength, hall⟩
            exact ⟨hall 0 a b rfl rfl, hlength, fun i v w hv hw => hall (i + 1) v w hv hw⟩

end Items

/-- **Equality of values is what it should be**, given that equality of lists is. -/
theorem same_iff {lists : ℕ → ℕ → Bool}
    (hlists : ∀ a b, lists a b = true ↔
      h.unfolded (.list a) = h.unfolded (.list b) ∧ ¬h.CutOff opened (.list a) (.list b))
    (v w : Value) :
    v.same lists w = true ↔ h.unfolded v = h.unfolded w ∧ ¬h.CutOff opened v w := by
  induction v using Value.induction_items generalizing w with
  | leaf v hv =>
      rw [h.same_iff_node_of_leaf hv, unfolded_eq_iff_of_leaf hv]
      exact (and_iff_left (not_cutOff_of_leaf hv)).symm
  | list a =>
      cases w with
      | list b => exact hlists a b
      | _ =>
          refine ⟨nofun, fun hor => ?_⟩
          have hnode := (unfolded_eq_iff.1 hor.1).1
          cases hnode
  | tuple as ih =>
      rw [same_tuple_iff]
      constructor
      · rintro ⟨bs, rfl, hlength, hsame⟩
        rw [sameItems_iff] at hsame
        have hall : ∀ (i : ℕ) v w, as[i]? = some v → bs[i]? = some w →
            h.unfolded v = h.unfolded w ∧ ¬h.CutOff opened v w := fun i v w hv hw =>
          (ih v (List.mem_of_getElem? hv) w).1 (hsame.2 i v w hv hw)
        refine ⟨unfolded_eq_iff.2 ⟨congrArg Node.tuple hlength, fun i v w hv hw =>
          (hall i v w hv hw).1⟩, ?_⟩
        rw [cutOff_tuple]
        rintro ⟨i, v, w, hv, hw, hcut⟩
        exact (hall i v w hv hw).2 hcut
      · rintro ⟨heq, hcut⟩
        obtain ⟨hnode, hbelow⟩ := unfolded_eq_iff.1 heq
        cases w with
        | tuple bs =>
            have hlength : as.length = bs.length := Node.tuple.inj hnode
            refine ⟨bs, rfl, hlength, sameItems_iff.2 ⟨hlength, fun i v w hv hw => ?_⟩⟩
            refine (ih v (List.mem_of_getElem? hv) w).2 ⟨hbelow i v w hv hw, fun hc => ?_⟩
            exact hcut (cutOff_tuple.2 ⟨i, v, w, hv, hw, hc⟩)
        | _ => cases hnode

/-- Different lists are equal if neither is open and their items are equal. -/
theorem sameList_succ_iff {levels a b : ℕ} (hne : a ≠ b) :
    h.sameList (levels + 1) opened a b = true ↔
      (a ∉ opened ∧ b ∉ opened) ∧ Value.sameItems (h.sameList levels (a :: b :: opened))
        (h.items a).toList (h.items b).toList = true := by
  have hlength : Value.sameItems (h.sameList levels (a :: b :: opened)) (h.items a).toList
      (h.items b).toList = true → (h.items a).size = (h.items b).size := Value.length_eq_of_sameItems
  simp only [sameList, Bool.or_eq_true, Bool.and_eq_true, Bool.not_eq_true', beq_iff_eq, hne,
    List.contains_eq_mem, decide_eq_false_iff_not, false_or]
  tauto

/-- **Two lists**: each pair of lists that is compared opens an address that was not open before. -/
theorem sameList_iff {levels : ℕ} (hl : h.unopened opened < levels) (a b : ℕ) :
    h.sameList levels opened a b = true ↔
      h.unfolded (.list a) = h.unfolded (.list b) ∧ ¬h.CutOff opened (.list a) (.list b) := by
  induction levels generalizing opened a b with
  | zero => cases hl
  | succ levels ih =>
      by_cases hab : a = b
      · subst hab
        simp [not_cutOff_self]
      -- a list that has an item is one that can still be opened
      have hitems : a ∉ opened → ∀ (i : ℕ) v w, (h.items a).toList[i]? = some v →
          (v.same (h.sameList levels (a :: b :: opened)) w = true ↔
            h.unfolded v = h.unfolded w ∧ ¬h.CutOff (a :: b :: opened) v w) := by
        intro ha i v w hv
        have hlt : a < h.lists.size :=
          lt_size_of_valueAt? (List.cons_ne_nil i [])
            (valueAt?_cons_eq_some.2 ⟨v, hv, h.valueAt?_nil v⟩)
        have hfewer := unopened_cons_cons_lt hlt ha b
        exact same_iff (fun a' b' => ih (by omega) a' b') v w
      rw [sameList_succ_iff hab, sameItems_iff, cutOff_list hab, unfolded_eq_iff]
      constructor
      · rintro ⟨⟨ha, hb⟩, hlength, hsame⟩
        refine ⟨⟨congrArg Node.list hlength, fun i v w hv hw => ?_⟩, ?_⟩
        · exact ((hitems ha i v w hv).1 (hsame i v w hv hw)).1
        · rintro ((hopen | hopen) | ⟨i, v, w, hv, hw, hcut⟩)
          · exact ha hopen
          · exact hb hopen
          · exact ((hitems ha i v w hv).1 (hsame i v w hv hw)).2 hcut
      · rintro ⟨⟨hnode, hbelow⟩, hcut⟩
        have ha : a ∉ opened := fun hopen => hcut (Or.inl (Or.inl hopen))
        have hb : b ∉ opened := fun hopen => hcut (Or.inl (Or.inr hopen))
        refine ⟨⟨ha, hb⟩, Node.list.inj hnode, fun i v w hv hw => ?_⟩
        refine (hitems ha i v w hv).2 ⟨hbelow i v w hv hw, fun hc => ?_⟩
        exact hcut (Or.inr ⟨i, v, w, hv, hw, hc⟩)

/-- **Values are equal exactly if their trees are and the comparison is not cut off.** -/
theorem equalWhile_iff : h.equalWhile opened v w = true ↔
    h.unfolded v = h.unfolded w ∧ ¬h.CutOff opened v w := by
  have hle := h.unopened_le opened
  exact same_iff (fun a b => sameList_iff (by omega) a b) v w

theorem equal_iff : h.equal v w = true ↔ h.unfolded v = h.unfolded w ∧ ¬h.CutOff [] v w := by
  rw [← equalWhile_nil, equalWhile_iff]

/-- What is open with nothing open before has been compared on the way. -/
theorem OpenAt.exists_way (heq : h.unfolded v = h.unfolded w) {p : List ℕ} {c : ℕ}
    (ho : h.OpenAt [] v w p c) :
    ∃ q r x y, p = q ++ r ∧ r ≠ [] ∧ h.valueAt? v q = some (.list x) ∧
      h.valueAt? w q = some (.list y) ∧ (c = x ∨ c = y) := by
  rcases ho with hnone | ⟨q, r, hp, hr, hx⟩ | ⟨q, r, hp, hr, hy⟩
  · cases hnone
  · obtain ⟨y, hy, hxy⟩ := exists_valueAt? heq hx
    obtain ⟨y, rfl⟩ := exists_list hxy
    exact ⟨q, r, c, y, hp, hr, hx, hy, Or.inl rfl⟩
  · obtain ⟨x, hx, hyx⟩ := exists_valueAt? heq.symm hy
    obtain ⟨x, rfl⟩ := exists_list hyx
    exact ⟨q, r, x, c, hp, hr, hx, hy, Or.inr rfl⟩

/-- **Where no list lies within itself**, the comparison of values with equal trees is not cut off:
the tree of a list that is met again would be its own subtree. -/
theorem Grounded.not_cutOff (hg : h.Grounded v) (heq : h.unfolded v = h.unfolded w) :
    ¬h.CutOff [] v w := by
  rintro ⟨p, a, b, hc, hopen⟩
  have hab : h.unfolded (.list a) = h.unfolded (.list b) := by
    funext s
    rw [← unfolded_append hc.left, ← unfolded_append hc.right, heq]
  -- one of the two lists at `p` is one of the two lists at `q`
  obtain ⟨q, r, x, y, rfl, hr, hx, hy, hsame⟩ : ∃ q r x y, p = q ++ r ∧ r ≠ [] ∧
      h.valueAt? v q = some (.list x) ∧ h.valueAt? w q = some (.list y) ∧
        ((a = x ∨ a = y) ∨ (b = x ∨ b = y)) := by
    rcases hopen with hopen | hopen
    · obtain ⟨q, r, x, y, hp, hr, hx, hy, hsame⟩ := hopen.exists_way heq
      exact ⟨q, r, x, y, hp, hr, hx, hy, Or.inl hsame⟩
    · obtain ⟨q, r, x, y, hp, hr, hx, hy, hsame⟩ := hopen.exists_way heq
      exact ⟨q, r, x, y, hp, hr, hx, hy, Or.inr hsame⟩
  have hxy : h.unfolded (.list x) = h.unfolded (.list y) := by
    funext s
    rw [← unfolded_append hx, ← unfolded_append hy, heq]
  have hax : h.unfolded (.list a) = h.unfolded (.list x) := by
    rcases hsame with (rfl | rfl) | (rfl | rfl)
    · rfl
    · exact hxy.symm
    · exact hab
    · exact hab.trans hxy.symm
  refine hg.not_unfolded hx hr fun s => ?_
  have hleft := hc.left
  rw [valueAt?_append_of_some hx] at hleft
  rw [unfolded_append hleft, hax]

/-! ### Acyclic heaps -/

/-- Equality of lists without regard to what is open, looking at most `levels` lists deep. -/
def sameListFreely (h : Heap) : ℕ → ℕ → ℕ → Bool
  | 0, a, b => a == b
  | levels + 1, a, b =>
      a == b || ((h.items a).size == (h.items b).size &&
        Value.sameItems (h.sameListFreely levels) (h.items a).toList (h.items b).toList)

/-- What is equal with some lists equal is equal with more of them equal. -/
theorem same_mono {lists lists' : ℕ → ℕ → Bool}
    (hlists : ∀ a b, lists a b = true → lists' a b = true) {v w : Value}
    (hsame : v.same lists w = true) : v.same lists' w = true := by
  induction v using Value.induction_items generalizing w with
  | leaf v hv =>
      rw [empty.same_iff_node_of_leaf hv] at hsame ⊢
      exact hsame
  | list a =>
      cases w with
      | list b => exact hlists a b hsame
      | _ => cases hsame
  | tuple as ih =>
      obtain ⟨bs, rfl, hlength, hitems⟩ := same_tuple_iff.1 hsame
      refine same_tuple_iff.2 ⟨bs, rfl, hlength, sameItems_iff.2 ⟨hlength, fun i v w hv hw => ?_⟩⟩
      exact ih v (List.mem_of_getElem? hv) ((sameItems_iff.1 hitems).2 i v w hv hw)

theorem sameItems_mono {lists lists' : ℕ → ℕ → Bool}
    (hlists : ∀ a b, lists a b = true → lists' a b = true) {as bs : List Value}
    (hsame : Value.sameItems lists as bs = true) : Value.sameItems lists' as bs = true := by
  rw [sameItems_iff] at hsame ⊢
  exact ⟨hsame.1, fun i v w hv hw => same_mono hlists (hsame.2 i v w hv hw)⟩

/-- Without regard to what is open more lists are equal. -/
theorem sameListFreely_of_sameList {levels a b : ℕ}
    (hsame : h.sameList levels opened a b = true) : h.sameListFreely levels a b = true := by
  induction levels generalizing opened a b with
  | zero => exact hsame
  | succ levels ih =>
      by_cases hab : a = b
      · simp [sameListFreely, hab]
      · obtain ⟨-, hitems⟩ := (sameList_succ_iff hab).1 hsame
        have hfreely := sameItems_mono (fun a b => ih (a := a) (b := b)) hitems
        simp [sameListFreely, hfreely, Value.length_eq_of_sameItems hfreely,
          ← Array.length_toList]

/-- Only values with equal trees are equal, if this holds of lists. -/
theorem unfolded_eq_of_same {lists : ℕ → ℕ → Bool}
    (hlists : ∀ a b, lists a b = true → h.unfolded (.list a) = h.unfolded (.list b)) {v w : Value}
    (hsame : v.same lists w = true) : h.unfolded v = h.unfolded w := by
  induction v using Value.induction_items generalizing w with
  | leaf v hv => exact (unfolded_eq_iff_of_leaf hv).2 ((h.same_iff_node_of_leaf hv).1 hsame)
  | list a =>
      cases w with
      | list b => exact hlists a b hsame
      | _ => cases hsame
  | tuple as ih =>
      obtain ⟨bs, rfl, hlength, hitems⟩ := same_tuple_iff.1 hsame
      refine unfolded_eq_iff.2 ⟨congrArg Node.tuple hlength, fun i v w hv hw => ?_⟩
      exact ih v (List.mem_of_getElem? hv) ((sameItems_iff.1 hitems).2 i v w hv hw)

/-- Equal at any depth are only lists with equal trees. -/
theorem unfolded_eq_of_sameListFreely {levels a b : ℕ}
    (hsame : h.sameListFreely levels a b = true) :
    h.unfolded (.list a) = h.unfolded (.list b) := by
  induction levels generalizing a b with
  | zero =>
      obtain rfl := beq_iff_eq.1 hsame
      rfl
  | succ levels ih =>
      simp only [sameListFreely, Bool.or_eq_true, Bool.and_eq_true, beq_iff_eq] at hsame
      obtain rfl | ⟨hsize, hitems⟩ := hsame
      · rfl
      · refine unfolded_eq_iff.2 ⟨congrArg Node.list hsize, fun i v w hv hw => ?_⟩
        exact unfolded_eq_of_same (fun a b => ih) ((sameItems_iff.1 hitems).2 i v w hv hw)

/-- **Equality is structural on acyclic heaps**: values are equal exactly if their trees are, and the
rule about open lists makes no difference, however deep one looks. -/
theorem structural_of_acyclic (hh : h.Acyclic) (v w : Value) :
    (h.equal v w = true ↔ h.unfolded v = h.unfolded w) ∧
      ∀ levels > h.lists.size, h.equal v w = v.same (h.sameListFreely levels) w := by
  have hiff : h.equal v w = true ↔ h.unfolded v = h.unfolded w := by
    rw [equal_iff]
    exact ⟨And.left, fun heq => ⟨heq, (hh.grounded v).not_cutOff heq⟩⟩
  refine ⟨hiff, fun levels hl => Bool.eq_iff_iff.2 ⟨fun hequal => ?_, fun hfreely => ?_⟩⟩
  · have hlevels : h.sameList (h.lists.size + 1) [] = h.sameList levels [] :=
      h.sameList_levels (by rw [unopened_nil]; omega) (by rw [unopened_nil]; omega)
    rw [equal, hlevels] at hequal
    exact same_mono (fun a b => sameListFreely_of_sameList) hequal
  · exact hiff.2 (unfolded_eq_of_same (fun a b => unfolded_eq_of_sameListFreely) hfreely)

/-- Lists that share an item: `[[1], [1]]` made of one list and of two. -/
def sharing : Heap :=
  { empty with
    lists := #[#[.int 1], #[.list 0, .list 0], #[.int 1], #[.list 2, .list 0], #[.list 1]] }

/-- The one and the other are equal; neither equals a list that holds it. -/
theorem sharing_structural : sharing.Acyclic ∧
    sharing.unfolded (.list 1) = sharing.unfolded (.list 3) ∧
      sharing.unfolded (.list 1) ≠ sharing.unfolded (.list 4) := by
  have hacyclic : sharing.Acyclic := acyclic_of_earlier (by decide)
  obtain ⟨hequal, -⟩ := structural_of_acyclic hacyclic (.list 1) (.list 3)
  obtain ⟨hholds, -⟩ := structural_of_acyclic hacyclic (.list 1) (.list 4)
  exact ⟨hacyclic, hequal.1 rfl, fun heq => absurd (hholds.2 heq) (by decide)⟩

/-! ### When equality is transitive -/

/-- **When equality is transitive**: the first and the last of three values have equal trees, and
they are equal exactly unless their comparison is cut off.  If one of the three leads to no list that
lies within itself, they are equal. -/
theorem transitive_unless_cutOff {u : Value} (huv : h.equal u v = true)
    (hvw : h.equal v w = true) :
    h.unfolded u = h.unfolded w ∧ (h.equal u w = true ↔ ¬h.CutOff [] u w) ∧
      (h.Grounded u ∨ h.Grounded v ∨ h.Grounded w → h.equal u w = true) := by
  have huv' : h.unfolded u = h.unfolded v := (equal_iff.1 huv).1
  have hvw' : h.unfolded v = h.unfolded w := (equal_iff.1 hvw).1
  have huw : h.unfolded u = h.unfolded w := huv'.trans hvw'
  refine ⟨huw, ?_, fun hgrounded => equal_iff.2 ⟨huw, ?_⟩⟩
  · rw [equal_iff]
    exact ⟨And.right, fun hcut => ⟨huw, hcut⟩⟩
  · rcases hgrounded with hg | hg | hg
    · exact hg.not_cutOff huw
    · exact (hg.of_unfolded_eq huv'.symm).not_cutOff huw
    · exact (hg.of_unfolded_eq huw.symm).not_cutOff huw

/-- The list 0 holds only itself.  The lists 1 and 2 hold only the list 0, and the list 3 holds only
the list 2. -/
def knot : Heap :=
  { empty with lists := #[#[.list 0], #[.list 0], #[.list 0], #[.list 2]] }

/-- **Equality is not transitive.** -/
theorem equal_not_transitive : ¬∀ (h : Heap) (u v w : Value),
    h.equal u v = true → h.equal v w = true → h.equal u w = true := by
  intro htrans
  have hend : knot.equal (.list 0) (.list 3) = true :=
    htrans knot (.list 0) (.list 1) (.list 3) rfl rfl
  cases hend

/-- The comparison of the first list with the last one comes back to the first one. -/
theorem knot_cut_off : knot.equal (.list 0) (.list 1) = true ∧
    knot.equal (.list 1) (.list 3) = true ∧
      knot.unfolded (.list 0) = knot.unfolded (.list 3) ∧
        knot.CutOff [] (.list 0) (.list 3) := by
  have hfirst : knot.equal (.list 0) (.list 1) = true := rfl
  have hlast : knot.equal (.list 1) (.list 3) = true := rfl
  obtain ⟨htrees, hequal, -⟩ := transitive_unless_cutOff hfirst hlast
  refine ⟨hfirst, hlast, htrees, by_contra fun hcut => ?_⟩
  cases hequal.2 hcut

end Tracepoint.Heap
