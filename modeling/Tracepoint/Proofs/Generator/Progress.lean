/-
**What becomes of generators.**

A generator is shared: loops in any thread may ask it for an item, and callbacks may do so while it
runs.  What keeps its history linear is its state.  While its frame is in the pile of a thread it
runs, and then it cannot be entered again; so its frame is in one place only.  While it is
suspended, the frame that it keeps is the one that its last yield has left, or that of the call that
has made it.  Once it is finished it stays finished.

Main definitions:

* `Tracepoint.State.owners` — the generators whose frames are in piles;
* `Tracepoint.Heap.Accounts` — these are the generators that run;
* `Tracepoint.Exchange.Leaves` — the frame of a generator is left;
* `Tracepoint.Machine.Keeps` — **where the frame of a suspended generator comes from**.

Main results:

* `Tracepoint.Machine.passage_advance` — what a step means for generators;
* `Tracepoint.Machine.accounts_states` — the frame of a generator is in one place;
* `Tracepoint.Machine.finished_states` — **what is finished stays finished**;
* `Tracepoint.Machine.keeps_of_suspended` — what a suspended generator keeps, in every run.
-/

import Tracepoint.Proofs.Control.Bounds
import Tracepoint.Proofs.Control.Bracket

set_option relaxedAutoImplicit false
set_option autoImplicit false

namespace Tracepoint

variable {σ : Type}

/-! ### The generators that run -/

/-- The generators whose frames are in the piles of threads, those of the innermost thread first. -/
def State.owners (s : State σ) : List ℕ := s.activities.flatMap Activity.owners

/-- **The generators that run are those whose frames are in piles**, each of them once. -/
structure Heap.Accounts (h : Heap) (owners : List ℕ) : Prop where
  nodup : owners.Nodup
  running : ∀ g, g ∈ owners ↔ h.generatorState g = .running

namespace Heap

variable {h h' : Heap} {putAside : ℕ → Frame → Prop} {owners owners' : List ℕ}

/-- A generator that takes another state than running is taken from the list. -/
theorem Accounts.tail {g : ℕ} (ha : h.Accounts (g :: owners)) {s : GeneratorState}
    (hs : s ≠ .running) : (h.setGenerator g s).Accounts owners := by
  obtain ⟨hno, hnodup⟩ := List.nodup_cons.1 ha.nodup
  refine ⟨hnodup, fun g' => ?_⟩
  have hold := ha.running g'
  rw [generatorState_setGenerator, List.mem_cons] at *
  split
  · rename_i hg
    obtain ⟨rfl, -⟩ := hg
    exact ⟨fun hmem => absurd hmem hno, fun hrunning => absurd hrunning hs⟩
  · rename_i hg
    rw [← hold]
    refine ⟨Or.inr, ?_⟩
    rintro (rfl | hmem)
    · -- a generator that runs is one of the heap
      exact absurd ⟨rfl, lt_size_of_running (hold.1 (Or.inl rfl))⟩ hg
    · exact hmem

/-- **Each passage keeps the account.** -/
theorem Passage.accounts (hp : h.Passage putAside owners h' owners') (ha : h.Accounts owners) :
    h'.Accounts owners' := by
  have notRunning : ∀ {g f}, h.generatorState g = .suspended f → g ∉ owners := by
    intro g f hg hmem
    rw [ha.running, hg] at hmem
    cases hmem
  cases hp with
  | keeps hh => exact ⟨ha.nodup, fun g => by rw [hh.generatorState, ha.running]⟩
  | @makes _ f hf =>
      refine ⟨ha.nodup, fun g => ?_⟩
      rw [generatorState_addGenerator, ha.running]
      split
      · rename_i hg
        rw [generatorState_of_le (Nat.le_of_eq hg.symm)]
        exact ⟨nofun, nofun⟩
      · rfl
  | @enters _ g f hg =>
      refine ⟨List.nodup_cons.2 ⟨notRunning hg, ha.nodup⟩, fun g' => ?_⟩
      rw [generatorState_setGenerator, List.mem_cons, ha.running]
      have hlt := lt_size_of_suspended hg
      split
      · rename_i heq
        simp [heq.1]
      · rename_i hne
        refine ⟨?_, Or.inr⟩
        rintro (rfl | hrunning)
        · exact absurd ⟨rfl, hlt⟩ hne
        · exact hrunning
  | @refuses _ g f hg =>
      refine ⟨ha.nodup, fun g' => ?_⟩
      rw [generatorState_setGenerator]
      split
      · rename_i heq
        obtain ⟨rfl, -⟩ := heq
        exact ⟨fun hmem => absurd hmem (notRunning hg), nofun⟩
      · exact ha.running g'
  | suspends => exact ha.tail nofun
  | ends => exact ha.tail nofun

/-- **A generator that is finished stays finished.** -/
theorem Passage.finished (hp : h.Passage putAside owners h' owners') (ha : h.Accounts owners)
    {g : ℕ} (hlt : g < h.generators.size) (hg : h.generatorState g = .finished) :
    h'.generatorState g = .finished := by
  have other : ∀ {g'} {s : GeneratorState}, h.generatorState g' ≠ .finished →
      (h.setGenerator g' s).generatorState g = .finished := by
    intro g' s hne
    rw [generatorState_setGenerator, if_neg, hg]
    rintro ⟨rfl, -⟩
    exact hne hg
  have running : ∀ {g' rest}, owners = g' :: rest → h.generatorState g' ≠ .finished := by
    rintro g' rest rfl
    rw [(ha.running g').1 (List.mem_cons_self ..)]
    exact nofun
  cases hp with
  | keeps hh => rw [hh.generatorState, hg]
  | makes => rw [generatorState_addGenerator, if_neg (Nat.ne_of_lt hlt), hg]
  | enters hg' | refuses hg' =>
      refine other ?_
      rw [hg']
      exact nofun
  | suspends | ends => exact other (running rfl)

end Heap

/-! ### One step -/

/-- **The frame of a generator is left** by an exchange. -/
structure Exchange.Leaves (x : Exchange) (g : ℕ) : Prop where
  closes : x.closes = true
  generator : x.thread.top.generator = some g

theorem State.mem_owners {s : State σ} {a : Activity} {g : ℕ} (ha : a ∈ s.activities)
    (hg : g ∈ a.owners) : g ∈ s.owners :=
  List.mem_flatMap.2 ⟨a, ha, hg⟩

/-- A generator whose frame is entered is one of those whose frames are in piles. -/
theorem State.Opens.mem_owners {s : State σ} {g : ℕ} (h : s.Opens g) : g ∈ s.owners := by
  obtain ⟨t, o, j, k, hf, -, hg⟩ := h
  refine State.mem_owners (a := .reporting t o j) (by simp [activities, hf, Focus.activity?]) ?_
  show g ∈ t.owners
  rw [Thread.owners_of_some hg]
  exact List.mem_cons_self ..

/-- So is one whose frame is left. -/
theorem Exchange.Leaves.mem_owners {m : Machine σ} {s : State σ} {x : Exchange} {g : ℕ}
    (hx : m.exchange? s = some x) (h : x.Leaves g) : g ∈ s.owners := by
  refine State.mem_owners (Machine.report_mem_of_exchange? hx) ?_
  show g ∈ x.thread.owners
  rw [Thread.owners_of_some h.generator]
  exact List.mem_cons_self ..

namespace Machine

/-- **A yield of the generator** is answered by the next step, which leaves this frame. -/
def Yields (m : Machine σ) (s : State σ) (x : Exchange) (g : ℕ) (f : Frame) : Prop :=
  m.exchange? s = some x ∧ x.Leaves g ∧ x.event = .frameYield ∧ f = x.thread.frame.advance

/-- **What a step means for generators.** -/
theorem passage_advance {m : Machine σ} {s : State σ} (hs : ∀ a ∈ s.activities, a.Sound) :
    s.world.heap.Passage (fun g f => ∃ x, m.Yields s x g f) s.owners (m.advance s).world.heap
      (m.advance s).owners := by
  have hstride := m.stride_advance s
  generalize m.advance s = s' at hstride
  cases hstride with
  | aside _ hcodes hgenerators ha =>
      have howners : s'.owners = s.owners := by
        unfold State.owners
        rcases ha with ha | ⟨r, ha⟩
        · rw [ha]
        · rw [ha, List.flatMap_cons, Activity.owners, List.nil_append]
      rw [howners]
      exact .keeps ⟨hcodes, hgenerators⟩
  | @call limit callable args k hf =>
      have hactivities : s.activities = s.levels.filterMap Level.activity? := by
        rw [State.activities, hf]
        rfl
      rw [State.owners, hactivities]
      exact (Activity.passage_call s.world.heap _ limit callable args).append _
  | @exchange x levels k hx hh ha hl =>
      have hr : x.thread.Reports x.occurrence x.juncture := hs _ (report_mem_of_exchange? hx)
      have hpassage := Thread.passage_resume (h := s.world.heap) hr x.answer
      rw [State.owners, ha, List.flatMap_cons]
      refine (hpassage.imp fun g f hsuspends => ⟨x, hx, ⟨?_, hsuspends.generator⟩, ?_,
        hsuspends.frame⟩).append _
      · obtain ⟨v, hj⟩ := hsuspends.juncture
        rw [Exchange.closes_eq hr, hj, hsuspends.answer]
        rfl
      · obtain ⟨v, hj⟩ := hsuspends.juncture
        exact (Exchange.tells_juncture hr hj).at_yielding.1

/-! ### Runs -/

section Runs

variable (m : Machine σ) {w : World σ} (hw : w.heap.Loaded) (script : Script σ)
include hw

theorem passage_states (n : ℕ) :
    (m.states (.initial w script) n).world.heap.Passage
      (fun g f => ∃ x, m.Yields (m.states (.initial w script) n) x g f)
      (m.states (.initial w script) n).owners (m.states (.initial w script) (n + 1)).world.heap
      (m.states (.initial w script) (n + 1)).owners := by
  rw [states_succ]
  refine passage_advance fun a ha => ?_
  have hvalid := (m.valid_states hw script n).activities a ha
  cases a with
  | finished r => trivial
  | reporting t o j => exact hvalid.1

/-- **The generators that run are those whose frames are in piles**, in every run. -/
theorem accounts_states (n : ℕ) :
    (m.states (.initial w script) n).world.heap.Accounts
      (m.states (.initial w script) n).owners := by
  induction n with
  | zero =>
      refine ⟨List.nodup_nil, fun g => ⟨nofun, fun hrunning => ?_⟩⟩
      have hstate : w.heap.generatorState g = .running := hrunning
      rw [Heap.generatorState_of_le (by simp [hw.fresh])] at hstate
      cases hstate
  | succ n ih => exact (m.passage_states hw script n).accounts ih

/-- **What is finished stays finished**, in every run. -/
theorem finished_states {n k : ℕ} (hnk : n ≤ k) {g : ℕ}
    (hlt : g < (m.states (.initial w script) n).world.heap.generators.size)
    (hg : (m.states (.initial w script) n).world.heap.generatorState g = .finished) :
    (m.states (.initial w script) k).world.heap.generatorState g = .finished := by
  suffices h : g < (m.states (.initial w script) k).world.heap.generators.size ∧
      (m.states (.initial w script) k).world.heap.generatorState g = .finished from h.2
  obtain ⟨d, rfl⟩ := Nat.exists_eq_add_of_le hnk
  clear hnk
  induction d with
  | zero => exact ⟨hlt, hg⟩
  | succ d ih =>
      have hpassage := m.passage_states hw script (n + d)
      exact ⟨Nat.lt_of_lt_of_le ih.1 hpassage.evolves.size,
        hpassage.finished (m.accounts_states hw script (n + d)) ih.1 ih.2⟩

end Runs

/-- **Where the frame of a suspended generator comes from**, after `n` steps: it is that of the call
that has made the generator, which has never run; or its last yield has left it, since which it has
not run. -/
inductive Keeps (m : Machine σ) (s : State σ) (n g : ℕ) (f : Frame) : Prop
  | fresh (hpc : f.pc = 0) (hstarted : f.started = false)
      (hno : ∀ i ≤ n, ¬ (m.states s i).Opens g) : Keeps m s n g f
  | yielded {k : ℕ} {x : Exchange} (hk : k < n) (hx : m.Yields (m.states s k) x g f)
      (hopened : ∃ i ≤ k, (m.states s i).Opens g)
      (hlast : ∀ i ≤ n, (m.states s i).Opens g → i ≤ k) : Keeps m s n g f

theorem Keeps.succ {m : Machine σ} {s : State σ} {n g : ℕ} {f : Frame} (h : m.Keeps s n g f)
    (hno : ¬ (m.states s (n + 1)).Opens g) : m.Keeps s (n + 1) g f := by
  cases h with
  | fresh hpc hstarted hnever =>
      refine .fresh hpc hstarted fun i hi => ?_
      rcases Nat.le_succ_iff.1 hi with hi | rfl
      · exact hnever i hi
      · exact hno
  | yielded hk hx hopened hlast =>
      refine .yielded (Nat.lt_succ_of_lt hk) hx hopened fun i hi hopens => ?_
      rcases Nat.le_succ_iff.1 hi with hi | rfl
      · exact hlast i hi hopens
      · exact absurd hopens hno

/-- **What a suspended generator keeps**, in every run. -/
theorem keeps_of_suspended (m : Machine σ) {w : World σ} (hw : w.heap.Loaded) (script : Script σ)
    {n g : ℕ} {f : Frame}
    (hg : (m.states (.initial w script) n).world.heap.generatorState g = .suspended f) :
    m.Keeps (.initial w script) n g f := by
  have known : ∀ {n}, m.RanBefore (.initial w script) (n + 1) g →
      ∃ i ≤ n, (m.states (.initial w script) i).Opens g := by
    rintro n (⟨f, hf, -⟩ | ⟨i, hi, hopens⟩)
    · rw [Heap.generatorState_of_le (by simp [State.initial, hw.fresh])] at hf
      cases hf
    · exact ⟨i, Nat.lt_succ_iff.1 hi, hopens⟩
  induction n with
  | zero =>
      have hstate : w.heap.generatorState g = .suspended f := hg
      rw [Heap.generatorState_of_le (by simp [hw.fresh])] at hstate
      cases hstate
  | succ n ih =>
      have hno : ¬ (m.states (.initial w script) (n + 1)).Opens g := by
        intro hopens
        have hrunning := ((m.accounts_states hw script (n + 1)).running g).1 hopens.mem_owners
        rw [hg] at hrunning
        cases hrunning
      have hhistory := m.history_states w script n
      rcases (m.passage_states hw script n).evolves.suspended g f hg with
        hold | ⟨hsize, a, code, args, -, -, hstart⟩ | ⟨x, hx⟩
      · exact (ih hold).succ hno
      · obtain ⟨-, -, -, hpc, hstarted, -⟩ := Frame.of_start hstart
        refine Keeps.succ (.fresh hpc hstarted fun i hi hopens => ?_) hno
        have hlt := hhistory.known g (Or.inr ⟨i, Nat.lt_succ_of_le hi, hopens⟩)
        exact absurd hsize (Nat.ne_of_lt hlt)
      · obtain ⟨_, hpile⟩ := hhistory.reports _ _ _ (report_mem_of_exchange? hx.1)
        have hran := hpile _ (List.mem_cons_self ..) g hx.2.1.generator
        refine .yielded (Nat.lt_succ_self n) hx (known hran) fun i hi hopens => ?_
        rcases Nat.le_succ_iff.1 hi with hi | rfl
        · exact hi
        · exact absurd hopens hno

end Machine

end Tracepoint
