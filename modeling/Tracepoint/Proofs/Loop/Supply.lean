/-
**What iterators give.**

An iterator stands for the list of the items that it has still to give: those of the list, tuple or
text that it was made for, as they were then, or the integers of a range.  It gives the first of
them to whichever loop asks next, and the others are left.  Nothing else happens to iterators, but
that new ones are made.

A loop that has got an item reports a branch into its body, with the item on top of the iterator on
its stack.

Main definitions:

* `Tracepoint.Iteration.toList`, `Tracepoint.Heap.remaining` — the items that are left;
* `Tracepoint.Heap.Supplies` — **what can happen to iterators**;
* `Tracepoint.Activity.offer?` — the item that a loop has got;
* `Tracepoint.Thread.Draws` — a loop over an iterator;
* `Tracepoint.Heap.Holds` — the items that a loop over a value goes over.

Main results:

* `Tracepoint.Iteration.toList_eq`, `Tracepoint.Word.mem_upTo`, `Tracepoint.Word.ascending_upTo` —
  an iterator gives the first item that is left, and a range its integers in ascending order;
* `Tracepoint.Heap.Supplies.conserves` — **no item is lost or repeated**;
* `Tracepoint.Thread.supplied_resume` — what an answer does to iterators.
-/

import Mathlib.Data.Nat.Init
import Tracepoint.Proofs.Thread.Suspension

set_option relaxedAutoImplicit false
set_option autoImplicit false

namespace Tracepoint

/-! ### The integers of a range -/

namespace Word

variable {a b k : Int64}

/-- The words from one up to another one, without the latter, in ascending order. -/
def upTo (a b : Int64) : List Int64 :=
  (List.range (b.toInt - a.toInt).toNat).map fun (i : ℕ) => Int64.ofInt (a.toInt + i)

/-- The successor of a word that is less than another one does not overflow. -/
theorem toInt_succ (h : a < b) : (a + 1).toInt = a.toInt + 1 := by
  have hlt := Int64.lt_iff_toInt_lt.1 h
  have ha := toInt_bounds a
  have hb := toInt_bounds b
  rw [toInt_least, toInt_greatest] at ha hb
  rw [Int64.toInt_add, Int64.toInt_one, Int.bmod_eq_of_le] <;> omega

theorem upTo_of_not_lt (h : ¬a < b) : upTo a b = [] := by
  have hle : b.toInt ≤ a.toInt := Int.not_lt.1 fun hlt => h (Int64.lt_iff_toInt_lt.2 hlt)
  rw [upTo, Int.toNat_eq_zero.2 (by omega), List.range_zero, List.map_nil]

theorem upTo_of_lt (h : a < b) : upTo a b = a :: upTo (a + 1) b := by
  have hlt := Int64.lt_iff_toInt_lt.1 h
  have hcount : (b.toInt - a.toInt).toNat = (b.toInt - (a + 1).toInt).toNat + 1 := by
    rw [toInt_succ h]
    omega
  rw [upTo, hcount, List.range_succ_eq_map, List.map_cons, List.map_map, upTo]
  rw [List.cons_eq_cons]
  refine ⟨?_, List.map_congr_left fun i _ => ?_⟩
  · simp
  · rw [toInt_succ h, Function.comp]
    congr 1
    omega

theorem toInt_upTo (i : ℕ) (hi : i < (b.toInt - a.toInt).toNat) :
    (Int64.ofInt (a.toInt + i)).toInt = a.toInt + i := by
  have ha := toInt_bounds a
  have hb := toInt_bounds b
  rw [toInt_least, toInt_greatest] at ha hb
  exact Int64.toInt_ofInt_of_le (by omega) (by omega)

theorem mem_upTo : k ∈ upTo a b ↔ a ≤ k ∧ k < b := by
  rw [upTo, List.mem_map, Int64.le_iff_toInt_le, Int64.lt_iff_toInt_lt]
  constructor
  · rintro ⟨i, hi, rfl⟩
    rw [List.mem_range] at hi
    rw [toInt_upTo i hi]
    omega
  · rintro ⟨hle, hlt⟩
    refine ⟨(k.toInt - a.toInt).toNat, by rw [List.mem_range]; omega, ?_⟩
    rw [show a.toInt + ((k.toInt - a.toInt).toNat : Int) = k.toInt by omega, Int64.ofInt_toInt]

theorem ascending_upTo (a b : Int64) : (upTo a b).Pairwise (· < ·) := by
  rw [upTo, List.pairwise_map]
  refine List.pairwise_lt_range.imp_of_mem fun {i j} hi hj hij => ?_
  rw [List.mem_range] at hi hj
  rw [Int64.lt_iff_toInt_lt, toInt_upTo i hi, toInt_upTo j hj]
  omega

/-- A range may stop at the largest word. -/
example : upTo 0x7ffffffffffffffe Int64.maxValue = [0x7ffffffffffffffe] := by decide

end Word

/-! ### Iterations -/

namespace Iteration

/-- **The items that an iterator has still to give**, in order. -/
def toList : Iteration → List Value
  | items rest => rest
  | range next stop => (Word.upTo next stop).map .int

/-- An iterator gives the first of the items that it has still to give. -/
theorem toList_of_next {it it' : Iteration} {v : Value} (h : it.next = some (v, it')) :
    it.toList = v :: it'.toList := by
  cases it with
  | items rest =>
      cases rest with
      | nil => cases h
      | cons v rest =>
          cases h
          rfl
  | range next stop =>
      rw [Iteration.next] at h
      split at h
      · rename_i hlt
        cases h
        rw [toList, Word.upTo_of_lt hlt, List.map_cons, toList]
      · cases h

theorem toList_of_next_eq_none {it : Iteration} (h : it.next = none) : it.toList = [] := by
  cases it with
  | items rest =>
      cases rest with
      | nil => rfl
      | cons v rest => cases h
  | range next stop =>
      rw [Iteration.next] at h
      split at h
      · cases h
      · rename_i hlt
        rw [toList, Word.upTo_of_not_lt hlt, List.map_nil]

/-- **What an iterator gives next** is what the list of its items begins with. -/
theorem toList_eq (it : Iteration) :
    it.toList = match it.next with
      | some (v, it') => v :: it'.toList
      | none => [] := by
  cases h : it.next with
  | none => exact toList_of_next_eq_none h
  | some step => exact toList_of_next h

end Iteration

/-! ### Heaps -/

namespace Heap

/-- The items that the iterator at an address has still to give. -/
def remaining (h : Heap) (a : ℕ) : List Value := (h.iteration a).toList

/-- **What can happen to the iterators**: nothing, a new one is made, or one of them gives its next
item. -/
inductive Supplies (h : Heap) : Heap → Option (ℕ × Value) → Prop
  | rests {h' : Heap} (hi : h'.iterators = h.iterators) : Supplies h h' none
  | makes {h' : Heap} (it : Iteration) (hi : h'.iterators = h.iterators.push it) :
      Supplies h h' none
  | gives {h' : Heap} {a : ℕ} {v : Value} {it : Iteration}
      (hn : (h.iteration a).next = some (v, it))
      (hi : h'.iterators = h.iterators.setIfInBounds a it) : Supplies h h' (some (a, v))

/-- The items among these that an iterator has given. -/
def itemsOf (a : ℕ) (given : List (ℕ × Value)) : List Value :=
  given.filterMap fun p => if p.1 = a then some p.2 else none

theorem itemsOf_append (a : ℕ) (given given' : List (ℕ × Value)) :
    itemsOf a (given ++ given') = itemsOf a given ++ itemsOf a given' :=
  List.filterMap_append

variable {h h' : Heap} {a : ℕ} {given : Option (ℕ × Value)}

/-- There is an iterator at an address where something is left. -/
theorem lt_size_of_remaining {v : Value} {rest : List Value} (hv : h.remaining a = v :: rest) :
    a < h.iterators.size := by
  rcases Nat.lt_or_ge a h.iterators.size with hlt | hge
  · exact hlt
  · rw [remaining, iteration, Array.getElem?_eq_none hge] at hv
    cases hv

theorem lt_size_of_next {v : Value} {it : Iteration} (hn : (h.iteration a).next = some (v, it)) :
    a < h.iterators.size :=
  lt_size_of_remaining (Iteration.toList_of_next hn)

namespace Supplies

theorem size_le (hs : h.Supplies h' given) : h.iterators.size ≤ h'.iterators.size := by
  cases hs with
  | rests hi => exact Nat.le_of_eq (congrArg Array.size hi.symm)
  | makes it hi =>
      rw [hi, Array.size_push]
      exact Nat.le_succ _
  | gives _ hi => exact Nat.le_of_eq (by rw [hi, Array.size_setIfInBounds])

/-- What else becomes of the heap does not matter. -/
theorem congr {h'' : Heap} (hs : h.Supplies h' given) (hi : h''.iterators = h'.iterators) :
    h.Supplies h'' given := by
  cases hs with
  | rests hsame => exact .rests (hi.trans hsame)
  | makes it hmade => exact .makes it (hi.trans hmade)
  | gives hn hset => exact .gives hn (hi.trans hset)

/-- **Nothing is lost and nothing comes from nowhere**: what an iterator gives and what it has left
is what it had. -/
theorem conserves (hs : h.Supplies h' given) (ha : a < h.iterators.size) :
    itemsOf a given.toList ++ h'.remaining a = h.remaining a := by
  cases hs with
  | rests hi => rw [remaining, iteration, hi]; rfl
  | makes it hi =>
      rw [remaining, iteration, hi, Array.getElem?_push, if_neg (Nat.ne_of_lt ha)]
      rfl
  | @gives b v it hn hi =>
      have hb := lt_size_of_next hn
      rw [remaining, iteration, hi, Array.getElem?_setIfInBounds, remaining]
      by_cases hab : b = a
      · subst hab
        rw [if_pos rfl, if_pos hb, Iteration.toList_of_next hn]
        simp [itemsOf]
      · rw [if_neg hab]
        simp [itemsOf, hab, iteration]

/-- What is not there gives nothing. -/
theorem itemsOf_of_le (hs : h.Supplies h' given) (ha : h.iterators.size ≤ a) :
    itemsOf a given.toList = [] := by
  cases hs with
  | rests | makes => rfl
  | gives hn =>
      have hb := lt_size_of_next hn
      simp [itemsOf, Nat.ne_of_lt (Nat.lt_of_lt_of_le hb ha)]

end Supplies

/-! ### Histories -/

/-- The items that were given in the first `n` steps of a history. -/
def givenBefore (given : ℕ → Option (ℕ × Value)) (n : ℕ) : List (ℕ × Value) :=
  (List.range n).filterMap given

theorem givenBefore_succ (given : ℕ → Option (ℕ × Value)) (n : ℕ) :
    givenBefore given (n + 1) = givenBefore given n ++ (given n).toList := by
  simp only [givenBefore, List.range_succ, List.filterMap_append, List.filterMap_cons,
    List.filterMap_nil]
  cases given n <;> rfl

section Histories

variable {heaps : ℕ → Heap} {given : ℕ → Option (ℕ × Value)}
  (hs : ∀ n, (heaps n).Supplies (heaps (n + 1)) (given n)) {i n a : ℕ}
include hs

theorem Supplies.size_mono (hi : i ≤ n) :
    (heaps i).iterators.size ≤ (heaps n).iterators.size := by
  induction n, hi using Nat.le_induction with
  | base => exact Nat.le_refl _
  | succ n _ ih => exact Nat.le_trans ih (hs n).size_le

/-- An iterator that is still to be made has given nothing. -/
theorem Supplies.givenBefore_of_le (ha : (heaps n).iterators.size ≤ a) :
    itemsOf a (givenBefore given n) = [] := by
  induction n with
  | zero => rfl
  | succ n ih =>
      have hle := Nat.le_trans (hs n).size_le ha
      rw [givenBefore_succ, itemsOf_append, ih hle, (hs n).itemsOf_of_le hle, List.append_nil]

/-- **No item is lost or repeated**: what an iterator has given since some step and what it has left
is what it had left then. -/
theorem Supplies.conserves_all (hi : i ≤ n) (ha : a < (heaps i).iterators.size) :
    itemsOf a (givenBefore given n) ++ (heaps n).remaining a =
      itemsOf a (givenBefore given i) ++ (heaps i).remaining a := by
  induction n, hi using Nat.le_induction with
  | base => rfl
  | succ n hn ih =>
      have hlt := Nat.lt_of_lt_of_le ha (Supplies.size_mono hs hn)
      rw [givenBefore_succ, itemsOf_append, List.append_assoc, (hs n).conserves hlt, ih]

/-- An iterator with nothing left stays so. -/
theorem Supplies.remaining_eq_nil (hi : i ≤ n) (ha : a < (heaps i).iterators.size)
    (hnone : (heaps i).remaining a = []) : (heaps n).remaining a = [] := by
  induction n, hi using Nat.le_induction with
  | base => exact hnone
  | succ n hn ih =>
      have hlt := Nat.lt_of_lt_of_le ha (Supplies.size_mono hs hn)
      have hsame := (hs n).conserves hlt
      rw [ih] at hsame
      exact (List.append_eq_nil_iff.1 hsame).2

end Histories

theorem remaining_addIterator (h : Heap) (it : Iteration) :
    (h.addIterator it).1.remaining h.iterators.size = it.toList := by
  simp [remaining, iteration, addIterator]

theorem remaining_setIteration {h : Heap} {a : ℕ} (ha : a < h.iterators.size) (it : Iteration) :
    (h.setIteration a it).remaining a = it.toList := by
  simp [remaining, iteration, setIteration, ha]

/-- Natives give nothing. -/
theorem Grows.supplies (hg : h.Grows h') : h.Supplies h' none := by
  cases hg with
  | lists => exact .rests rfl
  | iterator it => exact .makes it rfl

end Heap

/-! ### What an answer does to iterators -/

/-- **A loop has got an item** from an iterator: it reports that it goes on with its body, and the
item is on the stack. -/
def Activity.offer? : Activity → Option (ℕ × Value)
  | .reporting t _ (.transferring _ false) =>
      match t.frame.current?, t.frame.stack with
      | some (.forIter _), v :: .iterator a :: _ => some (a, v)
      | _, _ => none
  | _ => none

/-- With the heap that an answer has led to comes what the thread is doing: an iterator has given
the item that a loop has got, if one has, and else nothing was given. -/
def Heap.Supplied (h : Heap) (p : Heap × Activity) : Prop := h.Supplies p.1 p.2.offer?

theorem Activity.offer?_eq_some_iff {t : Thread} {o : Occurrence} {j : Juncture} {a : ℕ}
    {v : Value} :
    (Activity.reporting t o j).offer? = some (a, v) ↔ (∃ pc, j = .transferring pc false) ∧
      (∃ l, t.frame.current? = some (.forIter l)) ∧
      ∃ rest, t.frame.stack = v :: .iterator a :: rest := by
  constructor
  · intro h
    unfold offer? at h
    split at h
    · rename_i heq
      cases heq
      split at h
      · rename_i hi hs
        cases h
        exact ⟨⟨_, rfl⟩, ⟨_, hi⟩, _, hs⟩
      · cases h
    · cases h
  · rintro ⟨⟨pc, rfl⟩, ⟨l, hi⟩, rest, hs⟩
    simp only [offer?, hi, hs]

/-! ### Loops over iterators -/

/-- The activation on top of a thread is at a loop over an iterator, with an exit. -/
structure Thread.Draws (t : Thread) (a exit : ℕ) : Prop where
  loop : ∃ l, t.frame.current? = some (.forIter l) ∧ t.frame.code.target? l = some exit
  stack : ∃ rest, t.frame.stack = .iterator a :: rest

namespace Thread.Draws

variable {h : Heap} {t : Thread} {a exit : ℕ}

theorem resume_eq (hd : t.Draws a exit) (h : Heap) :
    t.resume h .instruction (.ok ()) = t.advanceIterator h exit (.iterator a) := by
  obtain ⟨⟨l, hi, ht⟩, rest, hs⟩ := hd
  have hcurrent : t.frame.code.instruction? t.frame.pc = some (.forIter l) := hi
  simp only [resume, proceed, executeCurrent, hcurrent, execute, ht, hs]

/-- **A loop gets the next item**, and the others are left. -/
theorem gets (hd : t.Draws a exit) {v : Value} {rest : List Value}
    (hv : h.remaining a = v :: rest) : ∃ it : Iteration, it.toList = rest ∧
      t.resume h .instruction (.ok ()) = t.produce (h.setIteration a it) v := by
  rw [Heap.remaining, Iteration.toList_eq] at hv
  cases hn : (h.iteration a).next with
  | none =>
      rw [hn] at hv
      cases hv
  | some step =>
      rw [hn] at hv
      cases hv
      refine ⟨step.2, rfl, ?_⟩
      rw [hd.resume_eq]
      simp only [advanceIterator, hn]

/-- **A loop is exhausted** when nothing is left. -/
theorem exhausts (hd : t.Draws a exit) (hv : h.remaining a = []) :
    t.resume h .instruction (.ok ()) = t.exhaust h exit := by
  rw [Heap.remaining, Iteration.toList_eq] at hv
  cases hn : (h.iteration a).next with
  | none =>
      rw [hd.resume_eq]
      simp only [advanceIterator, hn]
  | some step =>
      rw [hn] at hv
      cases hv

/-- The loop that gets the next item reports so. -/
theorem offer?_produce (hd : t.Draws a exit) (h : Heap) (v : Value) :
    (t.produce h v).2.offer? = some (a, v) := by
  obtain ⟨⟨l, hi, -⟩, rest, hs⟩ := hd
  refine Activity.offer?_eq_some_iff.2 ⟨⟨_, rfl⟩, ⟨l, hi⟩, rest, ?_⟩
  show v :: t.frame.stack = _
  rw [hs]

end Thread.Draws

/-! ### Going on after an answer -/

namespace Thread

variable {h h' : Heap} {t : Thread}

section Offers

theorem offer?_fetch (t : Thread) : t.fetch.offer? = none := by
  have hfetches := t.fetches_fetch
  generalize t.fetch = a at hfetches
  cases hfetches <;> rfl

theorem offer?_route (t : Thread) (e : Exception) : (t.route e).offer? = none := by
  have hroutes := t.routes_route e
  generalize t.route e = a at hroutes
  cases hroutes <;> rfl

theorem offer?_leaveRaising (t : Thread) (e : Exception) : (t.leaveRaising e).offer? = none := by
  unfold leaveRaising
  split <;> rfl

/-- Only loops get items. -/
theorem Performs.offer?_eq_none {a : Activity} (ha : t.Performs a)
    (hno : ∀ l, t.frame.current? ≠ some (.forIter l)) : a.offer? = none := by
  cases ha with
  | passes => exact offer?_fetch _
  | fails => rfl
  | tells hf =>
      rw [Option.eq_none_iff_forall_ne_some]
      rintro ⟨a, v⟩ hoffer
      obtain ⟨-, ⟨l, hl⟩, -⟩ := Activity.offer?_eq_some_iff.1 hoffer
      exact hno l (hf.current?.symm.trans hl)

end Offers

theorem supplied_next (hs : h.Supplies h' none) (f : Frame) : h.Supplied (t.next h' f) := by
  rwa [Heap.Supplied, next, offer?_fetch]

theorem supplies_settle (h : Heap) (t : Thread) (s : GeneratorState) :
    h.Supplies (t.settle h s) none := by
  unfold settle
  split <;> exact .rests rfl

theorem supplied_leaveReturning (hs : h.Supplies h' none) (v : Value) :
    h.Supplied (t.leaveReturning h' v) := by
  unfold leaveReturning
  split
  · exact hs
  · exact supplied_next hs _

theorem supplied_leaveRaising (hs : h.Supplies h' none) (e : Exception) :
    h.Supplied (h', t.leaveRaising e) := by
  rwa [Heap.Supplied, offer?_leaveRaising]

theorem supplied_leaveByReturn (h : Heap) (t : Thread) (v : Value) :
    h.Supplied (t.leaveByReturn h v) := by
  unfold leaveByReturn
  split
  · exact .rests rfl
  · exact supplied_leaveReturning (supplies_settle ..) v

/-- A loop that gets an item from a generator gets none from an iterator. -/
theorem supplied_leaveByYield (hs : t.Sound) (v : Value) : h.Supplied (t.leaveByYield h v) := by
  unfold leaveByYield
  split
  · rename_i g caller hg hp
    have hawaited := (hs.pop? hp).1
    simp only [Activation.AwaitedBy, hg] at hawaited
    obtain ⟨l, target, rest, hl, -, hstack⟩ := hawaited
    have hstack' : caller.frame.stack = .generator g :: rest := hstack
    have hoffer : (caller.produce (h.setGenerator g (.suspended t.frame.advance)) v).2.offer? =
        none := by
      rw [Option.eq_none_iff_forall_ne_some]
      rintro ⟨a, v'⟩ hoffer
      obtain ⟨-, -, rest', hrest⟩ := Activity.offer?_eq_some_iff.1 hoffer
      have hpush : v :: caller.frame.stack = v' :: .iterator a :: rest' := hrest
      rw [hstack'] at hpush
      cases hpush
    rw [Heap.Supplied, hoffer]
    exact .rests rfl
  · exact supplied_leaveRaising (supplies_settle ..) _

theorem supplied_leaveLoop (h : Heap) (t : Thread) : h.Supplied (t.leaveLoop h) := by
  unfold leaveLoop
  split <;> exact .rests rfl

theorem supplied_makeCall (callable : Value) (args : List Value) :
    h.Supplied (t.makeCall h callable args) := by
  have rest : h.Supplies h none := .rests rfl
  unfold makeCall
  split
  · split
    · exact rest
    · split
      · exact rest
      · rename_i frame hf
        split
        · have grown : h.Supplies (h.addGenerator frame).1 none := .rests rfl
          exact supplied_next grown _
        · split <;> exact rest
  · have hnative := (h.grows_callNative callable args).supplies
    split
    · rename_i h' v heq
      rwa [heq] at hnative
    · rename_i h' e heq
      rwa [heq] at hnative

/-- **What a loop does to iterators**: if it is one over an iterator, it asks that for an item. -/
theorem supplied_advanceIterator {l : Label} {exit : ℕ}
    (hi : t.frame.current? = some (.forIter l)) (ht : t.frame.code.target? l = some exit)
    {iterator : Value} {rest : List Value} (hs : t.frame.stack = iterator :: rest) :
    h.Supplied (t.advanceIterator h exit iterator) := by
  unfold advanceIterator
  split
  · rename_i a
    split
    · rename_i v it hn
      have hdraws : t.Draws a exit := ⟨⟨l, hi, ht⟩, rest, hs⟩
      rw [Heap.Supplied, hdraws.offer?_produce]
      exact .gives hn rfl
    · exact .rests rfl
  · split
    · exact .rests rfl
    · exact .rests rfl
    · split <;> exact .rests rfl
  · exact .rests rfl

theorem supplied_execute {i : Instruction} (hi : t.frame.current? = some i) :
    h.Supplied (t.execute h i) := by
  by_cases hloop : ∃ l, i = .forIter l
  · obtain ⟨l, rfl⟩ := hloop
    simp only [execute]
    split
    · exact .rests rfl
    · rename_i ht
      split
      · exact .rests rfl
      · rename_i hs
        exact supplied_advanceIterator hi ht hs
  · have hno : ∀ l, i ≠ .forIter l := fun l hl => hloop ⟨l, hl⟩
    have hoffer : (t.execute h i).2.offer? = none := by
      rcases goesOn_execute (h := h) hi with ha | ⟨callee, -, ha⟩
      · refine ha.offer?_eq_none fun l hl => hno l ?_
        rwa [hi, Option.some.injEq] at hl
      · rw [ha]
        rfl
    rw [Heap.Supplied, hoffer]
    exact (grows_execute hno).supplies

/-- **What an answer does to iterators.** -/
theorem supplied_resume {o : Occurrence} {j : Juncture} (hr : t.Reports o j) (h : Heap)
    (r : Except Exception Unit) : h.Supplied (t.resume h j r) := by
  have rest : h.Supplies h none := .rests rfl
  have fetched : ∀ t' : Thread, h.Supplied (h, t'.fetch) := fun t' => by
    rwa [Heap.Supplied, offer?_fetch]
  have routed : ∀ e, h.Supplied (h, t.route e) := fun e => by
    rwa [Heap.Supplied, offer?_route]
  cases r with
  | error fault =>
      cases j with
      | raised e => exact routed fault
      | unwound e => exact supplied_leaveRaising (supplies_settle ..) fault
      | _ => exact rest
  | ok u =>
      cases j with
      | entered | transferring | handled e => exact fetched _
      | line | nativeRaised e => exact rest
      | instruction =>
          obtain ⟨-, i, hi⟩ := hr.tells.at_instruction
          have hcurrent : t.frame.code.instruction? t.frame.pc = some i := hi
          simp only [resume, proceed, executeCurrent, hcurrent]
          exact supplied_execute hi
      | called callable args => exact supplied_makeCall callable args
      | nativeReturned v => exact supplied_next rest _
      | returning v => exact supplied_leaveByReturn h t v
      | yielding v => exact supplied_leaveByYield hr.sound v
      | stopped => exact supplied_leaveLoop h t
      | raised e => exact routed e
      | unwound e => exact supplied_leaveRaising (supplies_settle ..) e

end Thread

namespace Activity

/-- **What a call from outside does to iterators.** -/
theorem supplies_call (h : Heap) (limit : ℕ) (callable : Value) (args : List Value) :
    h.Supplies (call h limit callable args).1 none := by
  unfold call
  split
  · split
    · exact .rests rfl
    · split
      · exact .rests rfl
      · split
        · exact .rests rfl
        · split <;> exact .rests rfl
  · exact (h.grows_callNative callable args).supplies

theorem offer?_call (h : Heap) (limit : ℕ) (callable : Value) (args : List Value) :
    (call h limit callable args).2.offer? = none := by
  rcases call_cases h limit callable args with ⟨r, hr, -⟩ | ⟨_, _, f, -, -, -, -, -, henter⟩
  · rw [hr]
    rfl
  · rw [henter]
    rfl

end Activity

/-! ### Where iterators come from -/

/-- **What there is to go over in a value**: the items that a list has on the heap, those of a tuple,
or the characters of a text, each as a text of its own. -/
inductive Heap.Holds (h : Heap) : Value → List Value → Prop
  | list (a : ℕ) : Holds h (.list a) (h.items a).toList
  | tuple (items : List Value) : Holds h (.tuple items) items
  | text (s : String) : Holds h (.str s) (s.toList.map fun c => .str (String.singleton c))

/-- The arguments of a range: the integer that it stops at, behind the one that it starts with
unless this is zero. -/
inductive Value.Bounds (start stop : Int64) : List Value → Prop
  | stop (h : start = 0) : Bounds start stop [.int stop]
  | both : Bounds start stop [.int start, .int stop]

theorem Thread.callNative_range {start stop : Int64} {args : List Value}
    (hargs : Value.Bounds start stop args) (h : Heap) :
    callNative h (.native .range) args =
      ((h.addIterator (.range start stop)).1, .ok (.iterator h.iterators.size)) := by
  cases hargs with
  | stop hstart => rw [hstart]; rfl
  | both => rfl

namespace Thread

variable {h : Heap} {t : Thread} {rest : List Value}

/-- **A loop over a list, a tuple or a text gets an iterator** for the items that are there. -/
theorem resume_getIter {v : Value} {items : List Value} (hi : t.frame.current? = some .getIter)
    (hs : t.frame.stack = v :: rest) (hv : h.Holds v items) :
    t.resume h .instruction (.ok ()) = t.next (h.addIterator (.items items)).1
      { t.frame with stack := .iterator h.iterators.size :: rest } := by
  have hcurrent : t.frame.code.instruction? t.frame.pc = some .getIter := hi
  have hiterate : h.iterate v =
      ((h.addIterator (.items items)).1, .ok (.iterator h.iterators.size)) := by
    cases hv <;> rfl
  simp only [resume, proceed, executeCurrent, hcurrent, execute, hs, hiterate]

/-- A loop over an iterator goes on with that. -/
theorem resume_getIter_iterator {a : ℕ} (hi : t.frame.current? = some .getIter)
    (hs : t.frame.stack = .iterator a :: rest) :
    t.resume h .instruction (.ok ()) = t.next h t.frame := by
  have hcurrent : t.frame.code.instruction? t.frame.pc = some .getIter := hi
  have hframe : { t.frame with stack := .iterator a :: rest } = t.frame := by rw [← hs]
  simp only [resume, proceed, executeCurrent, hcurrent, execute, hs, Heap.iterate, hframe]

/-- **A range is an iterator** for its integers. -/
theorem resume_range {start stop : Int64} {args : List Value}
    (hargs : Value.Bounds start stop args) :
    t.resume h (.called (.native .range) args) (.ok ()) =
      ((h.addIterator (.range start stop)).1,
        t.report .nativeReturn (.call (.native .range) args.head?)
          (.nativeReturned (.iterator h.iterators.size))) := by
  simp only [resume, proceed, makeCall, callNative_range hargs]

end Thread

theorem Activity.call_range {h : Heap} {start stop : Int64} {args : List Value} (limit : ℕ)
    (hargs : Value.Bounds start stop args) :
    call h limit (.native .range) args = ((h.addIterator (.range start stop)).1,
      .finished (.ok (.iterator h.iterators.size))) := by
  simp only [call, Thread.callNative_range hargs]

end Tracepoint
