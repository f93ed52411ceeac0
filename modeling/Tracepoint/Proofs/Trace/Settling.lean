/-
**The samples come to an end, and always to the same one.**

Each sample is a function without parameters that reads nothing but its own constants, and none of
these is a list, an iterator or a generator.  So a run of a sample depends on nothing that is on the
heap beside the code units; and once it is known how many activations a sample has at most, any
larger limit makes no difference.  What is left are a few runs from an empty heap, one for each
smaller limit, which can be looked at one by one.

Main definitions:

* `Tracepoint.Value.isFixed` — values without addresses;
* `Tracepoint.Heap.isFresh` — heaps on which nothing has been made yet;
* `Tracepoint.Activity.settles` — a thread comes to an end soon;
* `Tracepoint.Value.Settles` — **a call tells the same and comes to the same on any heap**.

Main results:

* `Tracepoint.Heap.behind_of_isFresh` — a heap is a fresh one behind itself;
* `Tracepoint.Sample.settles_of_settlesBelow` — one limit stands for all larger ones;
* `Tracepoint.Sample.settles_of_mem` — **the samples settle** under any limit.
-/

import Tracepoint.Proofs.Trace.Listening

set_option relaxedAutoImplicit false
set_option autoImplicit false

namespace Tracepoint

/-! ### What holds no address -/

mutual

/-- **A value without addresses** of lists, iterators and generators. -/
def Value.isFixed : Value → Bool
  | .tuple items => Value.allFixed items
  | .list _ | .iterator _ | .generator _ => false
  | _ => true

def Value.allFixed : List Value → Bool
  | [] => true
  | v :: vs => Value.isFixed v && Value.allFixed vs

end

mutual

/-- A value without addresses stays as it is when addresses are moved. -/
theorem Value.behind_of_isFixed (g : Heap) {v : Value} (h : v.isFixed = true) :
    v.behind g = v := by
  cases v with
  | tuple items => exact congrArg Value.tuple (Value.allBehind_of_allFixed g h)
  | list | iterator | generator => cases h
  | _ => rfl

theorem Value.allBehind_of_allFixed (g : Heap) {vs : List Value} (h : Value.allFixed vs = true) :
    Value.allBehind g vs = vs := by
  cases vs with
  | nil => rfl
  | cons v vs =>
      obtain ⟨hv, hvs⟩ := Bool.and_eq_true_iff.1 h
      exact congrArg₂ List.cons (Value.behind_of_isFixed g hv) (Value.allBehind_of_allFixed g hvs)

end

def Code.isFixed (c : Code) : Bool := c.consts.all Value.isFixed

theorem Code.behind_of_isFixed (g : Heap) {c : Code} (h : c.isFixed = true) : c.behind g = c := by
  have hconsts : c.consts.map (Value.behind g) = c.consts := by
    refine Array.ext (by rw [Array.size_map]) fun i hi hi' => ?_
    rw [Array.getElem_map]
    exact Value.behind_of_isFixed g (Array.all_eq_true.1 h i hi')
  rw [Code.behind, hconsts]

/-- A result without addresses. -/
def resultFixed : Except Exception Value → Bool
  | .ok v => v.isFixed
  | .error _ => true

theorem resultBehind_of_fixed (g : Heap) {r : Except Exception Value}
    (h : resultFixed r = true) : resultBehind g r = r := by
  cases r with
  | ok v => exact congrArg Except.ok (Value.behind_of_isFixed g h)
  | error e => rfl

namespace Heap

/-- **A heap on which nothing has been made yet**, and whose code units have only constants without
addresses. -/
def isFresh (h : Heap) : Bool :=
  h.lists.isEmpty && h.iterators.isEmpty && h.generators.isEmpty && h.codes.all Code.isFixed

/-- **A heap is a fresh one behind itself.** -/
theorem behind_of_isFresh {h h' : Heap} (hfresh : h.isFresh = true) (hcodes : h'.codes = h.codes) :
    h.behind h' = h' := by
  obtain ⟨codes, lists, iterators, generators⟩ := h
  obtain ⟨codes', lists', iterators', generators'⟩ := h'
  obtain rfl : codes' = codes := hcodes
  simp only [isFresh, Bool.and_eq_true, Array.isEmpty_iff] at hfresh
  obtain ⟨⟨⟨rfl, rfl⟩, rfl⟩, hfixed⟩ := hfresh
  have hmap : codes'.map (Code.behind ⟨codes', lists', iterators', generators'⟩) = codes' := by
    refine Array.ext (by rw [Array.size_map]) fun i hi hi' => ?_
    rw [Array.getElem_map]
    exact Code.behind_of_isFixed _ (Array.all_eq_true.1 hfixed i hi')
  simp only [behind, hmap]
  simp

end Heap

/-! ### Coming to an end -/

/-- A thread comes to an end with at most so many reports, with a result without addresses, and all
its states on the way are of a kind. -/
def Activity.settles (kind : Thread → Bool) : ℕ → Heap × Activity → Bool
  | 0, _ => false
  | _ + 1, (_, .finished r) => resultFixed r
  | n + 1, (h, .reporting t _ j) => kind t && Activity.settles kind n (t.proceed h j)

/-- A thread that comes to an end has told something until then. -/
theorem Activity.tells_of_settles {kind : Thread → Bool} {n : ℕ} {p : Heap × Activity}
    (h : Activity.settles kind n p = true) :
    ∃ reports last, reports.length < n ∧ resultFixed last.2 = true ∧
      Activity.Tells (fun t => kind t = true) p reports last := by
  induction n generalizing p with
  | zero => cases h
  | succ n ih =>
      obtain ⟨heap, a⟩ := p
      cases a with
      | finished r => exact ⟨[], (heap, r), Nat.succ_pos n, h, .finished ..⟩
      | reporting t o j =>
          obtain ⟨ht, hrest⟩ := Bool.and_eq_true_iff.1 h
          obtain ⟨reports, last, hlength, hfixed, htells⟩ := ih hrest
          exact ⟨_ :: reports, last, Nat.succ_lt_succ hlength, hfixed, .reporting ht htells⟩

/-- **A call tells the same and comes to the same on any heap** with certain code units, which it
leaves where they are. -/
def Value.Settles (entry : Value) (codes : Array Code) (limit : ℕ)
    (reports : List (String × Site)) (r : Except Exception Value) : Prop :=
  ∀ h : Heap, h.codes = codes → ∃ last : Heap, last.codes = codes ∧
    Activity.Tells (fun _ => True) (Activity.call h limit entry []) reports (last, r)

/-! ### The samples -/

namespace Sample

/-- The limit makes no difference to a thread, nor would a larger one if it is already as large as
is needed. -/
def unlimited (depth limit : ℕ) (t : Thread) : Bool :=
  t.limit == limit && (decide (limit < depth) || t.hasRoom)

theorem hasRoom_of_unlimited {depth limit : ℕ} {t : Thread} (g : Heap)
    (h : unlimited depth (min limit depth) t = true) :
    (t.behind g limit).hasRoom = t.hasRoom := by
  have hroom : (t.behind g limit).hasRoom = decide (t.depth < limit) := rfl
  simp only [unlimited, Bool.and_eq_true, beq_iff_eq, Bool.or_eq_true, decide_eq_true_eq,
    Thread.hasRoom] at h
  rw [hroom, Thread.hasRoom]
  refine decide_eq_decide.2 ?_
  omega

/-- The sample comes to an end from an empty heap under each limit up to a depth, and under that it
has always room for one more activation. -/
def settlesBelow (s : Sample) (depth : ℕ) : Bool :=
  match s.load .empty with
  | .error _ => false
  | .ok (entry, h) =>
      h.isFresh && entry.isFixed && (List.range (depth + 1)).all fun limit =>
        Activity.settles (unlimited depth limit) 0x200 (Activity.call h limit entry [])

/-- **One limit stands for all larger ones**, and an empty heap for all heaps. -/
theorem settles_of_settlesBelow {s : Sample} {depth : ℕ} (hdepth : 0 < depth)
    (h : s.settlesBelow depth = true) :
    ∃ entry heap, s.load .empty = .ok (entry, heap) ∧ ∀ limit, ∃ reports r,
      Trace.Brief reports ∧ entry.Settles heap.codes limit reports r := by
  unfold settlesBelow at h
  cases hload : s.load .empty with
  | error e =>
      rw [hload] at h
      cases h
  | ok loaded =>
      obtain ⟨entry, heap⟩ := loaded
      rw [hload] at h
      simp only [Bool.and_eq_true, List.all_eq_true, List.mem_range] at h
      obtain ⟨⟨hfresh, hentry⟩, hsettles⟩ := h
      refine ⟨entry, heap, rfl, fun limit => ?_⟩
      obtain ⟨reports, last, hlength, hfixed, htells⟩ :=
        Activity.tells_of_settles (hsettles (min limit depth) (by omega))
      refine ⟨reports, last.2, Nat.lt_trans hlength (by decide), fun h' hcodes => ⟨last.1.behind h', ?_⟩⟩
      have hcall : Activity.call h' limit entry [] =
          turnBehind h' limit (Activity.call heap (min limit depth) entry []) := by
        have hroom : 0 < limit ↔ 0 < min limit depth := by omega
        have hmoved := Activity.call_behind h' hroom heap entry []
        rwa [Heap.behind_of_isFresh hfresh hcodes, Value.behind_of_isFixed h' hentry] at hmoved
      have htold := htells.behind h' fun t ht => hasRoom_of_unlimited h' ht
      rw [← hcall, resultBehind_of_fixed h' hfixed] at htold
      refine ⟨?_, htold⟩
      rw [← hcodes, ← (Activity.evolves_call h' limit entry []).codes]
      exact htold.codes_eq (Activity.sound_call ..)

/-- No sample but one ever has more than three activations, and that one has twenty-two. -/
theorem exists_settlesBelow : ∀ s ∈ all, ∃ depth ∈ [4, 23], s.settlesBelow depth = true := by
  decide +kernel

/-- **The samples settle** under any limit. -/
theorem settles_of_mem {s : Sample} (hs : s ∈ all) :
    ∃ entry heap, s.load .empty = .ok (entry, heap) ∧ ∀ limit, ∃ reports r,
      Trace.Brief reports ∧ entry.Settles heap.codes limit reports r := by
  obtain ⟨depth, hdepth, hsettles⟩ := exists_settlesBelow s hs
  have hpositive : 0 < depth := by
    simp only [List.mem_cons, List.not_mem_nil, or_false] at hdepth
    omega
  exact settles_of_settlesBelow hpositive hsettles

end Sample

end Tracepoint
