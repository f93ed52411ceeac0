/-
**Values unfolded.**

A list is a value by its address.  To unfold a value is to look through the addresses: what comes
out is a tree, in which tuples and lists are the inner nodes and all other values the leaves.  A
position of the tree is a list of indices, and the tree says what stands at each position.  A list
that stands at several positions is unfolded at each of them, and where a list lies within itself the
tree is infinite.

There are finitely many lists.  So if the tree goes on and on along one path, some list on the way
lies within itself.

Main definitions:

* `Tracepoint.Heap.contents`, `Tracepoint.Heap.valueAt?` — the items of a value, and the value at a
  position;
* `Tracepoint.Node`, `Tracepoint.Heap.unfolded` — **the unfolded tree of a value**;
* `Tracepoint.Heap.Passes` — the lists that stand on the way to a position;
* `Tracepoint.Heap.SelfContaining`, `Tracepoint.Heap.Acyclic`, `Tracepoint.Heap.Grounded` — lists
  within themselves, heaps and values without any.

Main results:

* `Tracepoint.Value.induction_items` — induction on values, by the items of tuples;
* `Tracepoint.Heap.unfolded_eq_iff` — **trees are equal node by node**;
* `Tracepoint.Heap.exists_selfContaining` — a path that repeats for ever leads through a list that
  lies within itself;
* `Tracepoint.Heap.Grounded.of_unfolded_eq` — values with equal trees have such lists or not together;
* `Tracepoint.Heap.acyclic_of_earlier` — lists of earlier lists lie apart.
-/

import Mathlib.Data.Fintype.Pigeonhole
import Mathlib.Tactic.WLOG
import Tracepoint.Proofs.Value.Levels

set_option relaxedAutoImplicit false
set_option autoImplicit false

namespace Tracepoint

/-! ### Values as trees of tuples -/

namespace Value

/-- Nothing stands below a value: it is neither a tuple nor a list. -/
def IsLeaf : Value → Prop
  | .tuple _ | .list _ => False
  | _ => True

/-- What holds of lists, of leaves, and of tuples if of their items, holds of all values. -/
@[elab_as_elim]
theorem induction_items {P : Value → Prop} (leaf : ∀ v, v.IsLeaf → P v)
    (list : ∀ a, P (.list a)) (tuple : ∀ items, (∀ v ∈ items, P v) → P (.tuple items)) :
    ∀ v, P v
  | .tuple items => tuple items fun v _ => induction_items leaf list tuple v
  | .list a => list a
  | .null => leaf _ trivial
  | .bool _ => leaf _ trivial
  | .int _ => leaf _ trivial
  | .str _ => leaf _ trivial
  | .function _ => leaf _ trivial
  | .native _ => leaf _ trivial
  | .exception _ => leaf _ trivial
  | .iterator _ => leaf _ trivial
  | .generator _ => leaf _ trivial
  termination_by v => sizeOf v

end Value

/-- What stands at a position of an unfolded value: a value by content, a native by its name, or a
row of some length, whose items stand at the positions below. -/
inductive Node where
  | null
  | bool (b : Bool)
  | int (n : Int64)
  | str (s : String)
  | tuple (length : ℕ)
  | list (length : ℕ)
  | function (address : ℕ)
  | native (name : String)
  | exception (e : Exception)
  | iterator (address : ℕ)
  | generator (address : ℕ)

/-- The number of positions directly below a node. -/
def Node.width : Node → ℕ
  | tuple n | list n => n
  | _ => 0

namespace Heap

/-! ### Positions -/

/-- The items of a tuple or a list; other values have none. -/
def contents (h : Heap) : Value → List Value
  | .tuple items => items
  | .list a => (h.items a).toList
  | _ => []

def node (h : Heap) : Value → Node
  | .null => .null
  | .bool b => .bool b
  | .int n => .int n
  | .str s => .str s
  | .tuple items => .tuple items.length
  | .list a => .list (h.items a).size
  | .function a => .function a
  | .native f => .native f.name
  | .exception e => .exception e
  | .iterator a => .iterator a
  | .generator a => .generator a

/-- **The value at a position** of a value. -/
def valueAt? (h : Heap) : Value → List ℕ → Option Value
  | v, [] => some v
  | v, i :: p => (h.contents v)[i]?.bind fun w => h.valueAt? w p

/-- **The unfolded tree of a value**: what stands at each position, if there is such a position. -/
def unfolded (h : Heap) (v : Value) (p : List ℕ) : Option Node :=
  (h.valueAt? v p).map h.node

/-- On the way from a value to a position stands a list. -/
def Passes (h : Heap) (v : Value) (p : List ℕ) (a : ℕ) : Prop :=
  ∃ q r, p = q ++ r ∧ r ≠ [] ∧ h.valueAt? v q = some (.list a)

variable {h : Heap} {v w : Value}

@[simp] theorem valueAt?_nil (h : Heap) (v : Value) : h.valueAt? v [] = some v := rfl

theorem valueAt?_cons (h : Heap) (v : Value) (i : ℕ) (p : List ℕ) :
    h.valueAt? v (i :: p) = (h.contents v)[i]?.bind fun w => h.valueAt? w p := rfl

theorem valueAt?_cons_of_some {i : ℕ} (hw : (h.contents v)[i]? = some w) (p : List ℕ) :
    h.valueAt? v (i :: p) = h.valueAt? w p := by
  rw [valueAt?_cons, hw, Option.bind_some]

theorem valueAt?_cons_eq_some {i : ℕ} {p : List ℕ} :
    h.valueAt? v (i :: p) = some w ↔
      ∃ u, (h.contents v)[i]? = some u ∧ h.valueAt? u p = some w := by
  rw [valueAt?_cons, Option.bind_eq_some_iff]

theorem valueAt?_append (h : Heap) (v : Value) (p q : List ℕ) :
    h.valueAt? v (p ++ q) = (h.valueAt? v p).bind fun w => h.valueAt? w q := by
  induction p generalizing v with
  | nil => rfl
  | cons i p ih =>
      rw [List.cons_append, valueAt?_cons, valueAt?_cons, Option.bind_assoc]
      simp only [ih]

theorem valueAt?_append_of_some {p : List ℕ} (hw : h.valueAt? v p = some w) (q : List ℕ) :
    h.valueAt? v (p ++ q) = h.valueAt? w q := by
  rw [valueAt?_append, hw, Option.bind_some]

theorem passes_nil {a : ℕ} : ¬h.Passes v [] a := by
  rintro ⟨q, r, heq, hr, -⟩
  exact hr (List.append_eq_nil_iff.1 heq.symm).2

/-- What stands on the way is the value itself, or stands on the way from one of its items. -/
theorem passes_cons {i a : ℕ} {p : List ℕ} :
    h.Passes v (i :: p) a ↔
      v = .list a ∨ ∃ w, (h.contents v)[i]? = some w ∧ h.Passes w p a := by
  constructor
  · rintro ⟨q, r, heq, hr, hq⟩
    cases q with
    | nil => exact Or.inl (Option.some.inj hq)
    | cons j q =>
        rw [List.cons_append, List.cons.injEq] at heq
        obtain ⟨rfl, rfl⟩ := heq
        obtain ⟨w, hw, hq⟩ := valueAt?_cons_eq_some.1 hq
        exact Or.inr ⟨w, hw, q, r, rfl, hr, hq⟩
  · rintro (rfl | ⟨w, hw, q, r, rfl, hr, hq⟩)
    · exact ⟨[], i :: p, rfl, nofun, rfl⟩
    · exact ⟨i :: q, r, rfl, hr, valueAt?_cons_eq_some.2 ⟨w, hw, hq⟩⟩

/-! ### Trees -/

@[simp] theorem unfolded_nil (h : Heap) (v : Value) : h.unfolded v [] = some (h.node v) := rfl

theorem unfolded_cons_of_some {i : ℕ} (hw : (h.contents v)[i]? = some w) (p : List ℕ) :
    h.unfolded v (i :: p) = h.unfolded w p := by
  rw [unfolded, unfolded, valueAt?_cons_of_some hw]

theorem unfolded_append {p : List ℕ} (hw : h.valueAt? v p = some w) (q : List ℕ) :
    h.unfolded v (p ++ q) = h.unfolded w q := by
  rw [unfolded, unfolded, valueAt?_append_of_some hw]

theorem length_contents (h : Heap) (v : Value) : (h.contents v).length = (h.node v).width := by
  cases v with
  | list a => exact Array.length_toList
  | _ => rfl

theorem contents_of_leaf (hv : v.IsLeaf) : h.contents v = [] := by
  cases v with
  | tuple items => exact hv.elim
  | list a => exact hv.elim
  | _ => rfl

theorem node_eq_list {n : ℕ} (hv : h.node v = .list n) : ∃ a, v = .list a := by
  cases v with
  | list a => exact ⟨a, rfl⟩
  | _ => cases hv

/-- **Trees are equal node by node**: the same stands at the root, and the trees of the items are
equal. -/
theorem unfolded_eq_iff :
    h.unfolded v = h.unfolded w ↔
      h.node v = h.node w ∧ ∀ (i : ℕ) v' w', (h.contents v)[i]? = some v' →
        (h.contents w)[i]? = some w' → h.unfolded v' = h.unfolded w' := by
  constructor
  · intro heq
    refine ⟨Option.some.inj (congrFun heq []), fun i v' w' hv' hw' => funext fun p => ?_⟩
    rw [← unfolded_cons_of_some hv', ← unfolded_cons_of_some hw', heq]
  · rintro ⟨hnode, hitems⟩
    have hlength : (h.contents v).length = (h.contents w).length := by
      rw [length_contents, length_contents, hnode]
    funext p
    cases p with
    | nil => rw [unfolded_nil, unfolded_nil, hnode]
    | cons i p =>
        rcases Nat.lt_or_ge i (h.contents v).length with hi | hi
        · have hv' := List.getElem?_eq_getElem hi
          have hw' := List.getElem?_eq_getElem (hlength ▸ hi)
          rw [unfolded_cons_of_some hv', unfolded_cons_of_some hw', hitems i _ _ hv' hw']
        · rw [unfolded, unfolded, valueAt?_cons, valueAt?_cons, List.getElem?_eq_none hi,
            List.getElem?_eq_none (hlength ▸ hi)]

/-- Where one of two values with equal trees has a position, the other one has it too, and the
values at it have equal trees. -/
theorem exists_valueAt? (heq : h.unfolded v = h.unfolded w) {p : List ℕ} {x : Value}
    (hx : h.valueAt? v p = some x) :
    ∃ y, h.valueAt? w p = some y ∧ h.unfolded x = h.unfolded y := by
  have hnode := congrFun heq p
  rw [unfolded, hx, Option.map_some] at hnode
  obtain ⟨y, hy, -⟩ := Option.map_eq_some_iff.1 hnode.symm
  refine ⟨y, hy, funext fun q => ?_⟩
  rw [← unfolded_append hx, ← unfolded_append hy, heq]

theorem exists_list {a : ℕ} (heq : h.unfolded (.list a) = h.unfolded v) : ∃ b, v = .list b :=
  node_eq_list (unfolded_eq_iff.1 heq).1.symm

/-! ### Lists within themselves -/

/-- **A list lies within itself.** -/
def SelfContaining (h : Heap) (a : ℕ) : Prop :=
  ∃ p, p ≠ [] ∧ h.valueAt? (.list a) p = some (.list a)

/-- **No list lies within itself.** -/
def Acyclic (h : Heap) : Prop := ∀ a, ¬h.SelfContaining a

/-- **No list to which a value leads lies within itself.** -/
def Grounded (h : Heap) (v : Value) : Prop :=
  ∀ p a, h.valueAt? v p = some (.list a) → ¬h.SelfContaining a

theorem Acyclic.grounded (hh : h.Acyclic) (v : Value) : h.Grounded v := fun _ a _ => hh a

/-- A path taken some number of times. -/
def times (r : List ℕ) (n : ℕ) : List ℕ := (List.replicate n r).flatten

theorem times_add (r : List ℕ) (m n : ℕ) : times r (m + n) = times r m ++ times r n := by
  rw [times, List.replicate_add, List.flatten_append]
  rfl

theorem times_one (r : List ℕ) : times r 1 = r := by simp [times]

theorem times_ne_nil {r : List ℕ} (hr : r ≠ []) (n : ℕ) : times r (n + 1) ≠ [] := by
  rw [times_add, times_one]
  exact List.append_ne_nil_of_right_ne_nil _ hr

/-- A list that has an item is on the heap. -/
theorem lt_size_of_valueAt? {a : ℕ} {p : List ℕ} (hp : p ≠ [])
    (hv : h.valueAt? (.list a) p = some v) : a < h.lists.size := by
  rcases Nat.lt_or_ge a h.lists.size with hlt | hle
  · exact hlt
  · cases p with
    | nil => exact absurd rfl hp
    | cons i p =>
        have hnone : h.contents (.list a) = [] := by
          rw [contents, items_of_le hle]
        rw [valueAt?_cons, hnone] at hv
        cases hv

/-- **A path that can be taken for ever** leads through a list that lies within itself: there are
finitely many lists on it. -/
theorem exists_selfContaining {a : ℕ} {r : List ℕ} (hr : r ≠ [])
    (hlists : ∀ n, ∃ b, h.valueAt? (.list a) (times r n) = some (.list b)) :
    ∃ p b, h.valueAt? (.list a) p = some (.list b) ∧ h.SelfContaining b := by
  choose b hb using hlists
  have hlater : ∀ m n, h.valueAt? (.list (b m)) (times r n) = some (.list (b (m + n))) := by
    intro m n
    rw [← valueAt?_append_of_some (hb m), ← times_add, hb]
  have hlt : ∀ n, b n < h.lists.size := fun n =>
    lt_size_of_valueAt? (times_ne_nil hr 0) (hlater n 1)
  -- two of the infinitely many stops are the same list
  obtain ⟨m, n, hmn, hsame⟩ :=
    Finite.exists_ne_map_eq_of_infinite fun n => (⟨b n, hlt n⟩ : Fin h.lists.size)
  have hsame' : b m = b n := congrArg Fin.val hsame
  clear hsame
  wlog hle : m < n generalizing m n
  · exact this n m hmn.symm hsame'.symm (by omega)
  · obtain ⟨k, rfl⟩ := Nat.exists_eq_add_of_lt hle
    refine ⟨times r m, b m, hb m, times r (k + 1), times_ne_nil hr k, ?_⟩
    rw [hlater m (k + 1), ← Nat.add_assoc, ← hsame']

/-- Where a tree is its own subtree at `r`, the path `r` can be taken for ever. -/
theorem exists_selfContaining_of_unfolded {a : ℕ} {r : List ℕ} (hr : r ≠ [])
    (hself : ∀ q, h.unfolded (.list a) (r ++ q) = h.unfolded (.list a) q) :
    ∃ p b, h.valueAt? (.list a) p = some (.list b) ∧ h.SelfContaining b := by
  refine exists_selfContaining hr fun n => ?_
  have hnode : h.unfolded (.list a) (times r n) = some (h.node (.list a)) := by
    induction n with
    | zero => rfl
    | succ n ih => rw [Nat.add_comm, times_add, times_one, hself, ih]
  obtain ⟨w, hw, hlist⟩ := Option.map_eq_some_iff.1 hnode
  obtain ⟨b, rfl⟩ := node_eq_list hlist
  exact ⟨b, hw⟩

theorem Grounded.not_unfolded {p : List ℕ} {a : ℕ} (hg : h.Grounded v)
    (ha : h.valueAt? v p = some (.list a)) {r : List ℕ} (hr : r ≠ []) :
    ¬∀ q, h.unfolded (.list a) (r ++ q) = h.unfolded (.list a) q := by
  intro hself
  obtain ⟨s, b, hb, hcontains⟩ := exists_selfContaining_of_unfolded hr hself
  refine hg (p ++ s) b ?_ hcontains
  rw [valueAt?_append_of_some ha, hb]

/-- **Values with equal trees** lead to lists within themselves together, or neither does. -/
theorem Grounded.of_unfolded_eq (hg : h.Grounded v) (heq : h.unfolded v = h.unfolded w) :
    h.Grounded w := by
  rintro p a ha ⟨r, hr, hcontains⟩
  obtain ⟨x, hx, hax⟩ := exists_valueAt? heq.symm ha
  obtain ⟨b, rfl⟩ := exists_list hax
  refine hg.not_unfolded hx hr fun q => ?_
  rw [← hax, unfolded_append hcontains]

/-! ### Lists of earlier lists -/

end Heap

mutual

/-- The lists that a value holds, without looking into them. -/
def Value.held : Value → List ℕ
  | .tuple items => Value.heldByAll items
  | .list a => [a]
  | _ => []

def Value.heldByAll : List Value → List ℕ
  | [] => []
  | v :: vs => Value.held v ++ Value.heldByAll vs

end

namespace Heap

theorem mem_heldByAll {a : ℕ} {vs : List Value} :
    a ∈ Value.heldByAll vs ↔ ∃ v ∈ vs, a ∈ v.held := by
  induction vs with
  | nil => simp [Value.heldByAll]
  | cons v vs ih => simp [Value.heldByAll, ih]

/-- **Lists of earlier lists** do not lie within themselves. -/
theorem acyclic_of_earlier {h : Heap}
    (hh : ∀ a < h.lists.size, ∀ b ∈ Value.heldByAll (h.items a).toList, b < a) : h.Acyclic := by
  have hearlier : ∀ a, ∀ b ∈ Value.heldByAll (h.items a).toList, b < a := by
    intro a b hb
    rcases Nat.lt_or_ge a h.lists.size with hlt | hle
    · exact hh a hlt b hb
    · rw [items_of_le hle] at hb
      cases hb
  -- by induction on the position: what a value leads to is held by it or earlier
  have hleads : ∀ p v c, h.valueAt? v p = some (.list c) → ∃ b ∈ v.held, c ≤ b := by
    intro p
    induction p with
    | nil =>
        intro v c hc
        cases hc
        exact ⟨c, List.mem_singleton_self c, Nat.le_refl c⟩
    | cons i p ih =>
        intro v c hc
        obtain ⟨w, hw, hc⟩ := valueAt?_cons_eq_some.1 hc
        obtain ⟨b, hb, hcb⟩ := ih w c hc
        have hheld : b ∈ Value.heldByAll (h.contents v) :=
          mem_heldByAll.2 ⟨w, List.mem_of_getElem? hw, hb⟩
        cases v with
        | tuple items => exact ⟨b, hheld, hcb⟩
        | list a =>
            have hba := hearlier a b hheld
            exact ⟨a, List.mem_singleton_self a, by omega⟩
        | _ => cases hheld
  rintro a ⟨p, hp, ha⟩
  cases p with
  | nil => exact hp rfl
  | cons i p =>
      obtain ⟨w, hw, ha⟩ := valueAt?_cons_eq_some.1 ha
      obtain ⟨b, hb, hab⟩ := hleads p w a ha
      have hba := hearlier a b (mem_heldByAll.2 ⟨w, List.mem_of_getElem? hw, hb⟩)
      omega

end Heap

end Tracepoint
