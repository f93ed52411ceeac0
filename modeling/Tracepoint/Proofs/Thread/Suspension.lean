/-
**Where suspended frames come from.**

A thread changes the heap between two reports: it makes lists and iterators, advances iterators,
and runs generators.  Code units stay as they are and generators are not forgotten.  A frame is put
aside in a generator in two cases only: when a generator is made, with a frame that has not been
started, and when the activation on top yields, with its own frame behind the yield.

A generator whose frame comes on top of a thread runs from then on, and it stops running when the
activation is taken off.  So what becomes of the generators and what becomes of the piles belong
together, and are said at once.

Main definitions:

* `Tracepoint.Heap.Generates` — a frame for a call of a generator function;
* `Tracepoint.Heap.Grows` — what natives and most instructions do to the heap;
* `Tracepoint.Activity.owners` — the generators whose frames are in the pile of a thread;
* `Tracepoint.Heap.Passage` — **what may become of generators** and of those whose frames are in
  piles;
* `Tracepoint.Heap.Evolves` — what may become of a heap, whatever the piles are.

Main results:

* `Tracepoint.Thread.passage_resume` — **what an answer means for generators**;
* `Tracepoint.Activity.passage_call` — what a call from outside means for them;
* `Tracepoint.Heap.Passage.evolves`, `Tracepoint.Thread.evolves_resume`,
  `Tracepoint.Activity.evolves_call` — what this means for the heap.
-/

import Tracepoint.Proofs.Thread.Turn

set_option relaxedAutoImplicit false
set_option autoImplicit false

namespace Tracepoint

namespace Heap

/-! ### Heaps that evolve -/

/-- The frame with which a call of a generator function makes a generator. -/
def Generates (h : Heap) (f : Frame) : Prop :=
  ∃ a code args, h.code? a = some code ∧ code.isGenerator = true ∧ Frame.start a code args = .ok f

/-- **What may become of a heap**: code units stay, generators do not disappear, and each suspended
frame was suspended before, or is that of a new generator, or was put aside by an activation. -/
structure Evolves (h : Heap) (putAside : ℕ → Frame → Prop) (h' : Heap) : Prop where
  codes : h'.codes = h.codes
  size : h.generators.size ≤ h'.generators.size
  suspended : ∀ g f, h'.generatorState g = .suspended f →
    h.generatorState g = .suspended f ∨ (g = h.generators.size ∧ h.Generates f) ∨ putAside g f

/-- A heap has the same code units and the same generators as another one. -/
structure Alike (h h' : Heap) : Prop where
  codes : h'.codes = h.codes
  generators : h'.generators = h.generators

/-- **What natives and most instructions do to the heap**: lists may change and come, or an iterator
comes. -/
inductive Grows (h : Heap) : Heap → Prop
  | lists (lists : Array (Array Value)) : Grows h { h with lists }
  | iterator (it : Iteration) : Grows h (h.addIterator it).1

/-- **What may become of generators**, and of the list of those whose frames are in piles: nothing;
a generator is made; the frame of a suspended one comes on top of a pile, or there is no room and it
is given up; the frame on top is put aside, or given up. -/
inductive Passage (h : Heap) (putAside : ℕ → Frame → Prop) : List ℕ → Heap → List ℕ → Prop
  | keeps {owners : List ℕ} {h' : Heap} (hh : h.Alike h') : Passage h putAside owners h' owners
  | makes {owners : List ℕ} {f : Frame} (hf : h.Generates f) :
      Passage h putAside owners (h.addGenerator f).1 owners
  | enters {owners : List ℕ} {g : ℕ} {f : Frame} (hg : h.generatorState g = .suspended f) :
      Passage h putAside owners (h.setGenerator g .running) (g :: owners)
  | refuses {owners : List ℕ} {g : ℕ} {f : Frame} (hg : h.generatorState g = .suspended f) :
      Passage h putAside owners (h.setGenerator g .finished) owners
  | suspends {owners : List ℕ} {g : ℕ} {f : Frame} (hf : putAside g f) :
      Passage h putAside (g :: owners) (h.setGenerator g (.suspended f)) owners
  | ends {owners : List ℕ} {g : ℕ} :
      Passage h putAside (g :: owners) (h.setGenerator g .finished) owners

section States

variable {h h' : Heap}

theorem generatorState_setGenerator (h : Heap) (g g' : ℕ) (s : GeneratorState) :
    (h.setGenerator g s).generatorState g' =
      if g = g' ∧ g' < h.generators.size then s else h.generatorState g' := by
  by_cases hg : g = g'
  · subst hg
    by_cases hlt : g < h.generators.size
    · simp [generatorState, setGenerator, Array.getElem_modify, hlt]
    · simp [generatorState, setGenerator, hlt]
  · simp [generatorState, setGenerator, Array.getElem?_modify, hg]

theorem generatorState_addGenerator (h : Heap) (f : Frame) (g : ℕ) :
    (h.addGenerator f).1.generatorState g =
      if g = h.generators.size then .suspended f else h.generatorState g := by
  simp only [generatorState, addGenerator, Array.getElem?_push]
  split <;> rfl

/-- There is no generator at an address behind the last one. -/
theorem generatorState_of_le {g : ℕ} (hg : h.generators.size ≤ g) :
    h.generatorState g = .finished := by
  rw [generatorState, Array.getElem?_eq_none hg]
  rfl

/-- A generator that is not finished is one of the heap. -/
theorem lt_size_of_ne {g : ℕ} (hg : h.generatorState g ≠ .finished) :
    g < h.generators.size :=
  Nat.lt_of_not_le fun hge => hg (generatorState_of_le hge)

theorem lt_size_of_suspended {g : ℕ} {f : Frame} (hg : h.generatorState g = .suspended f) :
    g < h.generators.size := by
  refine lt_size_of_ne ?_
  rw [hg]
  exact nofun

theorem lt_size_of_running {g : ℕ} (hg : h.generatorState g = .running) :
    g < h.generators.size := by
  refine lt_size_of_ne ?_
  rw [hg]
  exact nofun

@[refl] theorem Alike.refl (h : Heap) : h.Alike h := ⟨rfl, rfl⟩

theorem Alike.generatorState (hh : h.Alike h') (g : ℕ) :
    h'.generatorState g = h.generatorState g := by
  rw [Heap.generatorState, hh.generators]
  rfl

@[refl] theorem Grows.refl (h : Heap) : h.Grows h := .lists h.lists

theorem Grows.alike (hg : h.Grows h') : h.Alike h' := by
  cases hg <;> exact ⟨rfl, rfl⟩

theorem grows_operate (h : Heap) (op : BinaryOperator) (v w : Value) :
    h.Grows (h.operate op v w).1 := by
  unfold operate
  split
  case h_8 => exact .lists _
  all_goals exact .refl h

theorem grows_iterate (h : Heap) (v : Value) : h.Grows (h.iterate v).1 := by
  unfold iterate
  split
  · exact .refl h
  · exact .refl h
  · split
    · exact .iterator _
    · exact .refl h

theorem grows_callNative (h : Heap) (callable : Value) (args : List Value) :
    h.Grows (Thread.callNative h callable args).1 := by
  unfold Thread.callNative
  split
  · unfold runNative
    split
    case h_5 => exact .lists _
    case h_8 | h_9 => exact .iterator _
    all_goals exact .refl h
  · exact .refl h

end States

section Passing

variable {h h' : Heap} {putAside putAside' : ℕ → Frame → Prop} {owners owners' : List ℕ}

theorem Alike.evolves (hh : h.Alike h') : h.Evolves putAside h' := by
  refine ⟨hh.codes, Nat.le_of_eq (by rw [hh.generators]), fun g f hf => Or.inl ?_⟩
  rwa [hh.generatorState] at hf

theorem evolves_setGenerator (h : Heap) (g : ℕ) (s : GeneratorState)
    (hs : ∀ f, s = .suspended f → putAside g f) : h.Evolves putAside (h.setGenerator g s) := by
  refine ⟨rfl, by simp [setGenerator], fun g' f hf => ?_⟩
  rw [generatorState_setGenerator] at hf
  split at hf
  · rename_i hg
    exact Or.inr (Or.inr (hg.1 ▸ hs f hf))
  · exact Or.inl hf

theorem evolves_addGenerator {f : Frame} (hf : h.Generates f) :
    h.Evolves putAside (h.addGenerator f).1 := by
  refine ⟨rfl, by simp [addGenerator], fun g f' hf' => ?_⟩
  rw [generatorState_addGenerator] at hf'
  split at hf'
  · rename_i hg
    cases hf'
    exact Or.inr (Or.inl ⟨hg, hf⟩)
  · exact Or.inl hf'

/-- **What a passage means for the heap.** -/
theorem Passage.evolves (hp : h.Passage putAside owners h' owners') : h.Evolves putAside h' := by
  cases hp with
  | keeps hh => exact hh.evolves
  | makes hf => exact evolves_addGenerator hf
  | enters | refuses | ends => exact evolves_setGenerator h _ _ nofun
  | suspends hf =>
      refine evolves_setGenerator h _ _ fun f' hf' => ?_
      cases hf'
      exact hf

theorem Passage.imp (hp : h.Passage putAside owners h' owners')
    (hsub : ∀ g f, putAside g f → putAside' g f) : h.Passage putAside' owners h' owners' := by
  cases hp with
  | keeps hh => exact .keeps hh
  | makes hf => exact .makes hf
  | enters hg => exact .enters hg
  | refuses hg => exact .refuses hg
  | suspends hf => exact .suspends (hsub _ _ hf)
  | ends => exact .ends

/-- Other threads do not matter. -/
theorem Passage.append (hp : h.Passage putAside owners h' owners') (rest : List ℕ) :
    h.Passage putAside (owners ++ rest) h' (owners' ++ rest) := by
  cases hp with
  | keeps hh => exact .keeps hh
  | makes hf => exact .makes hf
  | enters hg => exact .enters hg
  | refuses hg => exact .refuses hg
  | suspends hf => exact .suspends hf
  | ends => exact .ends

end Passing

end Heap

/-! ### The generators whose frames are in a pile -/

/-- The generators whose frames are in the pile of a thread, the latest first. -/
def Thread.owners (t : Thread) : List ℕ := t.pile.filterMap Activation.generator

def Activity.owners : Activity → List ℕ
  | .reporting t _ _ => t.owners
  | .finished _ => []

/-- What becomes of a generator when its activation is taken off at a juncture. -/
def Juncture.leftState (f : Frame) : Juncture → GeneratorState
  | .yielding _ => .suspended f.advance
  | _ => .finished

namespace Thread

/-- What the activation on top of a thread may put aside: its frame behind the yield that it is at,
if it is that of a generator. -/
def PutsAside (t : Thread) (g : ℕ) (f : Frame) : Prop :=
  t.top.generator = some g ∧ t.frame.current? = some .yield ∧ f = t.frame.advance

/-- The activation on top of a thread is put aside: its yield has been reported without a fault. -/
structure Suspends (t : Thread) (j : Juncture) (r : Except Exception Unit) (g : ℕ) (f : Frame) :
    Prop where
  generator : t.top.generator = some g
  juncture : ∃ v, j = .yielding v
  answer : r = .ok ()
  frame : f = t.frame.advance

theorem Suspends.putsAside {t : Thread} {e : Event} {d : Detail} {j : Juncture}
    {r : Except Exception Unit} {g : ℕ} {f : Frame} (h : t.Suspends j r g f)
    (ht : t.frame.Tells e d j) : t.PutsAside g f := by
  obtain ⟨hg, ⟨v, rfl⟩, -, hf⟩ := h
  exact ⟨hg, ht.at_yielding.2, hf⟩

section Owners

variable {t : Thread}

theorem owners_of_none (h : t.top.generator = none) :
    t.owners = t.below.filterMap Activation.generator := by
  rw [owners, pile, List.filterMap_cons, h]

theorem owners_of_some {g : ℕ} (h : t.top.generator = some g) :
    t.owners = g :: t.below.filterMap Activation.generator := by
  rw [owners, pile, List.filterMap_cons, h]

theorem owners_fetch (t : Thread) : t.fetch.owners = t.owners := by
  have hfetches := t.fetches_fetch
  generalize t.fetch = a at hfetches
  cases hfetches <;> rfl

theorem owners_route (t : Thread) (e : Exception) : (t.route e).owners = t.owners := by
  have hroutes := t.routes_route e
  generalize t.route e = a at hroutes
  cases hroutes <;> rfl

/-- An activation that goes on keeps its generator, if it has one. -/
theorem Continues.owners {a : Activity} (h : t.Continues a) : a.owners = t.owners := by
  obtain ⟨t', e, d, j, hm, -, -, rfl⟩ := h
  show t'.owners = _
  rw [Thread.owners, Thread.owners, pile, pile, List.filterMap_cons, List.filterMap_cons,
    hm.generator, hm.below]

end Owners

/-! ### What an answer means for generators -/

variable {h : Heap} {t : Thread} {putAside : ℕ → Frame → Prop}

/-- Only loops do more to the heap than natives do. -/
theorem grows_execute {i : Instruction} (hi : ∀ l, i ≠ .forIter l) :
    h.Grows (t.execute h i).1 := by
  cases i with
  | forIter l => exact absurd rfl (hi l)
  | binary op =>
      simp only [execute]
      split
      · rename_i w v stack _
        have hoperate := h.grows_operate op v w
        split
        · rename_i h' r heq
          rwa [heq] at hoperate
        · rename_i h' e heq
          rwa [heq] at hoperate
      · exact .refl h
  | getIter =>
      simp only [execute]
      split
      · exact .refl h
      · rename_i v stack _
        have hiterate := h.grows_iterate v
        split
        · rename_i h' r heq
          rwa [heq] at hiterate
        · rename_i h' e heq
          rwa [heq] at hiterate
  | buildList n =>
      simp only [execute]
      split
      · exact .refl h
      · exact .lists _
  | popJumpIfFalse l =>
      simp only [execute]
      split
      · exact .refl h
      · split
        · exact .refl h
        · split <;> exact .refl h
  | storeLocal slot =>
      simp only [execute]
      split
      · exact .refl h
      · split
        · rw [store_eq]
          exact .refl h
        · exact .refl h
  | call n =>
      simp only [execute]
      split
      · exact .refl h
      · split <;> exact .refl h
  | nop => exact .refl h
  | _ =>
      simp only [execute]
      split <;> exact .refl h

/-- **What a loop does to generators**: it may ask one for an item. -/
theorem passage_forIter (l : Label) :
    h.Passage putAside t.owners (t.execute h (.forIter l)).1
      (t.execute h (.forIter l)).2.owners := by
  simp only [execute]
  split
  · exact .keeps (.refl h)
  · split
    · exact .keeps (.refl h)
    · unfold advanceIterator
      split
      · split
        · exact .keeps ⟨rfl, rfl⟩
        · exact .keeps (.refl h)
      · split
        · exact .keeps (.refl h)
        · exact .keeps (.refl h)
        · rename_i hg
          split
          · exact .enters hg
          · exact .refuses hg
      · exact .keeps (.refl h)

theorem passage_execute {i : Instruction} (hi : t.frame.current? = some i) :
    h.Passage putAside t.owners (t.execute h i).1 (t.execute h i).2.owners := by
  by_cases hloop : ∃ l, i = .forIter l
  · obtain ⟨l, rfl⟩ := hloop
    exact passage_forIter l
  · have hno : ∀ l, i ≠ .forIter l := fun l hl => hloop ⟨l, hl⟩
    have howners : (t.execute h i).2.owners = t.owners := by
      rcases goesOn_execute (h := h) hi with ha | ⟨callee, he, -⟩
      · exact ha.proceeds.continues.owners
      · cases he with
        | loop _ hi' =>
            rw [hi, Option.some.injEq] at hi'
            exact absurd hi' (hno _)
    rw [howners]
    exact .keeps (grows_execute hno).alike

/-- **What a call does to generators**: it may make one. -/
theorem passage_makeCall (callable : Value) (args : List Value) :
    h.Passage putAside t.owners (t.makeCall h callable args).1
      (t.makeCall h callable args).2.owners := by
  unfold makeCall
  split
  · rename_i a
    split
    · exact .keeps (.refl h)
    · rename_i code hc
      split
      · exact .keeps (.refl h)
      · rename_i frame hf
        split
        · rename_i hg
          show h.Passage _ _ _ (fetch _).owners
          rw [owners_fetch]
          exact .makes ⟨a, code, args, hc, hg, hf⟩
        · split <;> exact .keeps (.refl h)
  · have hnative := (h.grows_callNative callable args).alike
    split
    · rename_i h' v heq
      rw [heq] at hnative
      exact .keeps hnative
    · rename_i h' e heq
      rw [heq] at hnative
      exact .keeps hnative

/-- A generator whose activation is taken off is suspended behind its yield, or finished. -/
theorem heap_of_closes (hs : t.Sound) {j : Juncture} {r : Except Exception Unit}
    (hj : j.closes r = true) :
    (t.resume h j r).1 = t.settle h (j.leftState t.frame) := by
  cases hg : t.top.generator with
  | none =>
      have settled : ∀ s, t.settle h s = h := fun s => by rw [settle, hg]
      rw [settled]
      cases j with
      | returning v =>
          cases r with
          | error fault => cases hj
          | ok u =>
              simp only [resume, proceed, leaveByReturn, hg, settled, leaveReturning]
              split <;> rfl
      | yielding v =>
          cases r with
          | error fault => cases hj
          | ok u => simp only [resume, proceed, leaveByYield, hg, settled]
      | unwound e => cases r <;> exact settled _
      | _ => cases r <;> cases hj
  | some g =>
      obtain ⟨caller, hp⟩ := hs.exists_caller hg
      cases j with
      | returning v =>
          cases r with
          | error fault => cases hj
          | ok u => simp only [resume, proceed, leaveByReturn, hg, hp, settle, Juncture.leftState]
      | yielding v =>
          cases r with
          | error fault => cases hj
          | ok u =>
              simp only [resume, proceed, leaveByYield, hg, hp, settle, Juncture.leftState]
              rfl
      | unwound e => cases r <;> rfl
      | _ => cases r <;> cases hj

/-- When an activation is taken off, its generator is not among those in the pile any more. -/
theorem owners_of_closes {o : Occurrence} {j : Juncture} (hr : t.Reports o j)
    {r : Except Exception Unit} (hj : j.closes r = true) :
    (t.resume h j r).2.owners = t.below.filterMap Activation.generator := by
  have hshift := (turn_resume hr.sound hr.tells h r).shift
  generalize (t.resume h j r).2 = a at hshift
  cases hshift with
  | stays hstays => simp [hj] at hstays
  | enters hok he => simp [hok, he.closes_eq_false] at hj
  | leaves _ hp hc => rw [hc.owners, owners, (pile_of_pop? hp).1]
  | ends _ hp =>
      rw [below_of_pop?_eq_none hp]
      rfl

theorem passage_of_closes {o : Occurrence} {j : Juncture} (hr : t.Reports o j)
    {r : Except Exception Unit} (hj : j.closes r = true) :
    h.Passage (t.Suspends j r) t.owners (t.resume h j r).1 (t.resume h j r).2.owners := by
  rw [owners_of_closes hr hj, heap_of_closes hr.sound hj]
  cases hg : t.top.generator with
  | none =>
      rw [owners_of_none hg, settle, hg]
      exact .keeps (.refl h)
  | some g =>
      rw [owners_of_some hg, settle, hg]
      cases j with
      | yielding v =>
          cases r with
          | error fault => cases hj
          | ok u => exact .suspends ⟨hg, ⟨v, rfl⟩, rfl, rfl⟩
      | _ => exact .ends

/-- **What an answer means for generators.** -/
theorem passage_resume {o : Occurrence} {j : Juncture} (hr : t.Reports o j)
    (r : Except Exception Unit) :
    h.Passage (t.Suspends j r) t.owners (t.resume h j r).1 (t.resume h j r).2.owners := by
  have route : ∀ e, h.Passage (t.Suspends j r) t.owners h (t.route e).owners := fun e => by
    rw [owners_route]
    exact .keeps (.refl h)
  cases hj : j.closes r with
  | true => exact passage_of_closes hr hj
  | false =>
      cases r with
      | error fault =>
          cases j with
          | raised e => exact route fault
          | unwound e => cases hj
          | _ => exact .keeps (.refl h)
      | ok u =>
          cases j with
          | instruction =>
              obtain ⟨-, i, hi⟩ := hr.tells.at_instruction
              have hcurrent : t.frame.code.instruction? t.frame.pc = some i := hi
              simp only [resume, proceed, executeCurrent, hcurrent]
              exact passage_execute hi
          | called callable args => exact passage_makeCall callable args
          | raised e => exact route e
          | returning v | yielding v | unwound e => cases hj
          | stopped =>
              simp only [resume, proceed, leaveLoop]
              split <;> exact .keeps (.refl h)
          | line | nativeRaised e => exact .keeps (.refl h)
          | entered | nativeReturned v | transferring pc jumped | handled e =>
              simp only [resume, proceed, next, owners_fetch]
              exact .keeps (.refl h)

/-- **What an answer means for the heap.** -/
theorem evolves_resume {o : Occurrence} {j : Juncture} (hr : t.Reports o j)
    (r : Except Exception Unit) : h.Evolves t.PutsAside (t.resume h j r).1 :=
  ((passage_resume hr r).imp fun _ _ hs => hs.putsAside hr.tells).evolves

end Thread

/-- **What a call from outside means for generators**: it may make one. -/
theorem Activity.passage_call (h : Heap) (putAside : ℕ → Frame → Prop) (limit : ℕ)
    (callable : Value) (args : List Value) :
    h.Passage putAside [] (call h limit callable args).1
      (call h limit callable args).2.owners := by
  unfold call
  split
  · rename_i a
    split
    · exact .keeps (.refl h)
    · rename_i code hc
      split
      · exact .keeps (.refl h)
      · rename_i frame hf
        split
        · rename_i hg
          exact .makes ⟨a, code, args, hc, hg, hf⟩
        · split <;> exact .keeps (.refl h)
  · exact .keeps (h.grows_callNative ..).alike

/-- What a call from outside means for the heap. -/
theorem Activity.evolves_call (h : Heap) (limit : ℕ) (callable : Value) (args : List Value) :
    h.Evolves (fun _ _ => False) (Activity.call h limit callable args).1 :=
  (passage_call ..).evolves

end Tracepoint
