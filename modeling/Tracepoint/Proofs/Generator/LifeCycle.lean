/-
**The life cycle of a generator.**

Whatever loops ask a generator for an item, in whatever threads and callbacks and in whatever order,
there is one history.  The frame of the generator is entered by a loop that finds it suspended: the
first time where it starts, and later behind the yield that has left it last, with its locals and
its stack as that yield has left them.  When it has returned, the loop that it was running for tells
so, and nobody else does; and once it has returned or an exception has left it, all loops over the
generator are exhausted at once.  A loop that asks for an item while the frame is in a pile, that
loop's own pile perhaps, gets an exception and has changed nothing.

Main definitions:

* `Tracepoint.Thread.LoopsOver`, `Tracepoint.Exchange.Attempts` — a loop over a generator, which
  asks for an item;
* `Tracepoint.State.OpensWith` — the frame of a generator is reported to be entered;
* `Tracepoint.Activity.stops` — a generator is reported to have returned;
* `Tracepoint.Machine.LifeCycles` — **every generator has one history**.

Main results:

* `Tracepoint.State.OpensWith.exists_attempt` — how the frame of a generator is entered;
* `Tracepoint.Exchange.Attempts.running`, `Tracepoint.Exchange.Attempts.finished`,
  `Tracepoint.Exchange.Attempts.suspended` — what an attempt leads to;
* `Tracepoint.Exchange.exists_of_stops` — when a generator is reported to have returned;
* `Tracepoint.Machine.generators_live` — **every generator has one history**, in every run of built
  code.
-/

import Tracepoint.Proofs.Control.Reconstruction
import Tracepoint.Proofs.Generator.Progress

set_option relaxedAutoImplicit false
set_option autoImplicit false

namespace Tracepoint

variable {σ : Type}

/-! ### Loops over generators -/

namespace Thread

/-- The activation on top of a thread is at a loop over a generator. -/
structure LoopsOver (t : Thread) (g : ℕ) : Prop where
  loop : ∃ l, t.frame.current? = some (.forIter l)
  stack : ∃ rest, t.frame.stack = .generator g :: rest

/-- **The loop of a thread is exhausted**: the iterator is taken from the stack, and a branch to the
exit of the loop is reported. -/
def Exhausts (t : Thread) (a : Activity) : Prop :=
  ∃ l exit, t.frame.current? = some (.forIter l) ∧ t.frame.code.target? l = some exit ∧
    a = (t.withFrame { t.frame with stack := t.frame.stack.tail }).report .branch
      (.branch (offsetOf exit)) (.transferring exit true)

/-- A loop over a generator asks it for an item. -/
theorem LoopsOver.resume_eq {t : Thread} {g : ℕ} (hloop : t.LoopsOver g) (hv : t.frame.Valid)
    (h : Heap) : ∃ l exit, t.frame.current? = some (.forIter l) ∧
      t.frame.code.target? l = some exit ∧
      t.resume h .instruction (.ok ()) = t.advanceIterator h exit (.generator g) := by
  obtain ⟨⟨l, hi⟩, rest, hs⟩ := hloop
  obtain ⟨exit, ht, -⟩ := hv.built.exists_target hi rfl
  have hcurrent : t.frame.code.instruction? t.frame.pc = some (.forIter l) := hi
  refine ⟨l, exit, hi, ht, ?_⟩
  simp only [resume, proceed, executeCurrent, hcurrent, execute, ht, hs]

end Thread

/-- **A loop asks a generator for an item**: nobody has objected to its instruction. -/
structure Exchange.Attempts (x : Exchange) (g : ℕ) : Prop where
  event : x.event = .instruction
  answer : x.answer = .ok ()
  loop : x.thread.LoopsOver g

/-- In the state, running code reports that it enters the frame of a generator. -/
structure State.OpensWith (s : State σ) (g : ℕ) (t : Thread) (o : Occurrence) : Prop where
  focus : ∃ j k, s.focus = .thread (.reporting t o j) k
  event : o.event.opensFrame = true
  generator : t.top.generator = some g

theorem State.OpensWith.opens {s : State σ} {g : ℕ} {t : Thread} {o : Occurrence}
    (h : s.OpensWith g t o) : s.Opens g := by
  obtain ⟨⟨j, k, hf⟩, hopens, hg⟩ := h
  exact ⟨t, o, j, k, hf, hopens, hg⟩

theorem State.Opens.exists_opensWith {s : State σ} {g : ℕ} (h : s.Opens g) :
    ∃ t o, s.OpensWith g t o := by
  obtain ⟨t, o, j, k, hf, hopens, hg⟩ := h
  exact ⟨t, o, ⟨j, k, hf⟩, hopens, hg⟩

/-! ### What an attempt leads to -/

section Attempts

variable {m : Machine σ} {s : State σ} {x : Exchange} {g : ℕ}

/-- **What is reported in the next state** is reported by a function that is called from outside, or
by a thread that goes on after an answer. -/
theorem Machine.call_or_exchange {t : Thread} {o : Occurrence} {j : Juncture}
    {k : Except Exception Value → Script σ}
    (hf : (m.advance s).focus = .thread (.reporting t o j) k) :
    (∃ limit f, .reporting t o j = (Thread.start limit ⟨f, none⟩).enter) ∨
      ∃ x, m.exchange? s = some x ∧ x.next = .reporting t o j := by
  have hstride := m.stride_advance s
  generalize m.advance s = s' at hstride hf
  cases hstride with
  | aside _ _ _ _ ho => simp [State.occurrence?, hf] at ho
  | @call limit callable args =>
      have hreport : (Activity.call s.world.heap limit callable args).2 = .reporting t o j :=
        (Focus.thread.inj hf).1
      rcases Activity.call_cases s.world.heap limit callable args with
        ⟨r, hr, -⟩ | ⟨_, _, f, -, -, -, -, -, henter⟩
      · rw [hr] at hreport
        cases hreport
      · exact Or.inl ⟨limit, f, hreport.symm.trans henter⟩
  | @exchange x levels _ hx hh =>
      refine Or.inr ⟨x, hx, ?_⟩
      rw [Exchange.next, hh]
      exact (Focus.thread.inj hf).1

/-- The next state shows what an answer has led to. -/
theorem Machine.follows_of_exchange? (hx : m.exchange? s = some x) {h : Heap} {a : Activity}
    (hnext : x.thread.resume x.heap x.juncture x.answer = (h, a)) :
    (m.advance s).world = { s.world with heap := h } ∧
      ∃ k, (m.advance s).focus = .thread a k := by
  obtain ⟨hheap, levels, k, hstep⟩ := advance_of_exchange? hx
  rw [hheap] at hnext
  rw [hstep]
  constructor
  · show (⟨_, (x.thread.resume s.world.heap x.juncture x.answer).1, _⟩ : World σ) = _
    rw [hnext]
  · refine ⟨k, ?_⟩
    show Focus.thread (x.thread.resume s.world.heap x.juncture x.answer).2 k = _
    rw [hnext]

namespace Exchange.Attempts

variable (ha : x.Attempts g) (hx : m.exchange? s = some x) (hs : s.Valid)
include ha hx hs

theorem resume_eq : ∃ l exit, x.thread.frame.current? = some (.forIter l) ∧
    x.thread.frame.code.target? l = some exit ∧
    x.thread.resume x.heap x.juncture x.answer =
      x.thread.advanceIterator s.world.heap exit (.generator g) := by
  have hvalid : x.report.Valid := hs.report hx
  rw [(Exchange.tells_event hvalid.1 ha.event).of_instruction, ha.answer,
    (Machine.advance_of_exchange? hx).1]
  exact ha.loop.resume_eq (hvalid.2 _ (List.mem_cons_self ..)).frame _

/-- **A generator that runs** gives nothing, and nothing has changed. -/
theorem running (hg : s.world.heap.generatorState g = .running) :
    (m.advance s).world = s.world ∧
      ∃ k, (m.advance s).focus = .thread (x.thread.raise .generatorRunning) k := by
  obtain ⟨l, exit, -, -, hresume⟩ := ha.resume_eq hx hs
  refine Machine.follows_of_exchange? hx (hresume.trans ?_)
  simp only [Thread.advanceIterator, hg]
  rfl

/-- **A generator that is finished** gives nothing, and the loop is exhausted. -/
theorem finished (hg : s.world.heap.generatorState g = .finished) :
    (m.advance s).world = s.world ∧
      ∃ a k, (m.advance s).focus = .thread a k ∧ x.thread.Exhausts a := by
  obtain ⟨l, exit, hi, ht, hresume⟩ := ha.resume_eq hx hs
  have hnext : x.thread.resume x.heap x.juncture x.answer =
      x.thread.exhaust s.world.heap exit := by
    rw [hresume]
    simp only [Thread.advanceIterator, hg]
  obtain ⟨hworld, k, hfocus⟩ := Machine.follows_of_exchange? hx hnext
  exact ⟨hworld, _, k, hfocus, l, exit, hi, ht, rfl⟩

/-- **A generator that is suspended** is entered, if there is room. -/
theorem suspended {f : Frame} (hg : s.world.heap.generatorState g = .suspended f)
    (hroom : x.thread.hasRoom = true) : (m.advance s).Opens g := by
  obtain ⟨l, exit, -, -, hresume⟩ := ha.resume_eq hx hs
  have hnext : x.thread.resume x.heap x.juncture x.answer =
      (s.world.heap.setGenerator g .running, (x.thread.push ⟨f, some g⟩).enter) := by
    rw [hresume]
    simp only [Thread.advanceIterator, hg, hroom, if_true]
  obtain ⟨-, k, hfocus⟩ := Machine.follows_of_exchange? hx hnext
  exact ⟨_, _, _, k, hfocus, Thread.opens_enter _, rfl⟩

end Exchange.Attempts

/-- **How the frame of a generator is entered**: a loop has asked for an item and has found it
suspended, and the frame goes on as it was kept. -/
theorem State.OpensWith.exists_attempt {t : Thread} {o : Occurrence}
    (h : (m.advance s).OpensWith g t o) (hs : s.Valid) :
    ∃ x f, m.exchange? s = some x ∧ x.Attempts g ∧ x.thread.hasRoom = true ∧
      s.world.heap.generatorState g = .suspended f ∧ t.frame = { f with started := true } ∧
      o = ⟨if f.started then .frameResume else .frameStart, .loaded f.address f.code, f.offset,
        .code none⟩ := by
  obtain ⟨⟨j, k, hf⟩, hopens, hg⟩ := h
  rcases Machine.call_or_exchange hf with ⟨limit, f, henter⟩ | ⟨x, hx, hnext⟩
  · -- a call from outside enters no generator's frame
    cases henter
    cases hg
  · have hvalid : x.report.Valid := hs.report hx
    obtain ⟨hok, callee, he⟩ :=
      (Exchange.opens_next_iff hvalid.1).1 (by rw [hnext]; exact hopens)
    rw [Exchange.next, hok, Thread.resume_of_enters he] at hnext
    generalize hj : x.juncture = j' at he
    cases he with
    | call =>
        cases hnext
        cases hg
    | @loop l exit g' rest f hroom hi _ hstack hstate =>
        cases hnext
        cases hg
        have hevent := (Exchange.tells_juncture hvalid.1 hj).at_instruction.1
        rw [(Machine.advance_of_exchange? hx).1] at hstate
        exact ⟨x, f, hx, ⟨hevent, hok, ⟨l, hi⟩, rest, hstack⟩, hroom, hstate, rfl, rfl⟩

end Attempts

/-! ### Generators that return -/

/-- Whether a thread is just reporting that the generator that it loops over has returned. -/
def Activity.stops : Activity → Bool
  | .reporting _ o _ => o.event == .stopIteration
  | .finished _ => false

namespace Thread

theorem stops_fetch (t : Thread) : t.fetch.stops = false := by
  have hfetches := t.fetches_fetch
  generalize t.fetch = a at hfetches
  cases hfetches <;> rfl

theorem stops_route (t : Thread) (e : Exception) : (t.route e).stops = false := by
  have hroutes := t.routes_route e
  generalize t.route e = a at hroutes
  cases hroutes <;> rfl

theorem stops_enter (t : Thread) : t.enter.stops = false := by
  show ((if t.frame.started then Event.frameResume else .frameStart) == .stopIteration) = false
  split <;> rfl

/-- No instruction reports this by itself. -/
theorem Performs.stops_eq_false {t : Thread} {a : Activity} (h : t.Performs a) :
    a.stops = false := by
  cases h with
  | passes => exact stops_fetch _
  | fails => rfl
  | tells _ ht hj =>
      cases ht with
      | stop => cases hj
      | _ => rfl

theorem Goes.stops_eq_false {t : Thread} {j : Juncture} {a : Activity} (h : t.Goes j a) :
    a.stops = false := by
  cases h with
  | arrives => exact stops_fetch _
  | begins => rfl
  | works _ ha => exact ha.stops_eq_false

end Thread

namespace Exchange

variable {x : Exchange}

/-- **When a generator is reported to have returned**: its frame has just returned. -/
theorem exists_of_stops (hr : x.thread.Reports x.occurrence x.juncture)
    (hstops : x.next.stops = true) : ∃ g, x.Leaves g ∧ x.event = .frameReturn := by
  have hturn := turn_next hr
  generalize x.next = a at hturn hstops
  cases hturn with
  | goes _ _ ha => simp [ha.stops_eq_false] at hstops
  | resolves => simp [Thread.stops_route] at hstops
  | enters => simp [Thread.stops_enter] at hstops
  | leaves _ _ _ ha => simp [ha.stops_eq_false] at hstops
  | fails | unwinds | strays | ends => cases hstops
  | @stops g v caller hok hj hg =>
      refine ⟨g, ⟨?_, hg⟩, (tells_juncture hr hj).at_returning⟩
      rw [closes_eq hr, hj, hok]
      rfl

/-- **A generator that returns** is reported to have returned, by the loop that it was running
for. -/
theorem Leaves.next_of_return {g : ℕ} (h : x.Leaves g) (he : x.event = .frameReturn)
    (hr : x.thread.Reports x.occurrence x.juncture) :
    ∃ (caller : Thread) (e : Exception),
      x.next = caller.report .stopIteration e.told .stopped ∧ caller.LoopsOver g ∧
        caller.pile = x.thread.below := by
  obtain ⟨v, hj⟩ := (tells_event hr he).of_return
  have hcloses := h.closes
  rw [closes_eq hr, hj] at hcloses
  cases hanswer : x.answer with
  | error fault =>
      rw [hanswer] at hcloses
      cases hcloses
  | ok u =>
      obtain ⟨caller, hp⟩ := hr.sound.exists_caller h.generator
      have hawaited := (hr.sound.pop? hp).1
      simp only [Activation.AwaitedBy, h.generator] at hawaited
      obtain ⟨l, target, rest, hl, -, hstack⟩ := hawaited
      refine ⟨caller, Thread.stopIteration x.heap v, ?_, ⟨⟨l, hl⟩, rest, hstack⟩,
        (Thread.pile_of_pop? hp).1.symm⟩
      rw [next, hj, hanswer]
      simp only [Thread.resume, Thread.proceed, Thread.leaveByReturn, h.generator, hp]
      rfl

/-- **A frame that is left without a yield** is given up: the generator is finished. -/
theorem Leaves.finished {g : ℕ} (h : x.Leaves g) (he : x.event ≠ .frameYield)
    (hr : x.thread.Reports x.occurrence x.juncture) (hg : g < x.heap.generators.size) :
    (x.thread.resume x.heap x.juncture x.answer).1.generatorState g = .finished := by
  have hcloses : x.juncture.closes x.answer = true := by
    rw [← closes_eq hr]
    exact h.closes
  have hleft : x.juncture.leftState x.thread.frame = .finished := by
    cases hj : x.juncture with
    | yielding v => exact absurd (tells_juncture hr hj).at_yielding.1 he
    | _ => rfl
  rw [Thread.heap_of_closes hr.sound hcloses, hleft, Thread.settle, h.generator]
  simp only [Heap.generatorState_setGenerator, hg, and_self, if_true]

end Exchange

/-! ### One history -/

namespace Machine

/-- **Every generator has one history** in a run: -/
structure LifeCycles (m : Machine σ) (s : State σ) : Prop where
  /-- its frame is in one pile at most, and only once there; -/
  alone : ∀ n, (m.states s n).owners.Nodup
  /-- it is entered by loops that ask for an item, find it suspended and have room; -/
  entered : ∀ n g, (m.states s (n + 1)).Opens g ↔
    ∃ x f, m.exchange? (m.states s n) = some x ∧ x.Attempts g ∧ x.thread.hasRoom = true ∧
      (m.states s n).world.heap.generatorState g = .suspended f
  /-- at first it starts where its code starts; -/
  first : ∀ n g t o, (m.states s n).OpensWith g t o → (∀ i < n, ¬ (m.states s i).Opens g) →
    o.event = .frameStart ∧ o.payload.offset = 0
  /-- later it goes on behind the yield that has left it last, as this has left it; -/
  later : ∀ n g t o, (m.states s n).OpensWith g t o → (∃ i < n, (m.states s i).Opens g) →
    ∃ k < n, ∃ x, m.exchange? (m.states s k) = some x ∧ x.Leaves g ∧ x.event = .frameYield ∧
      (∀ i < n, (m.states s i).Opens g → i ≤ k) ∧ o.event = .frameResume ∧
      o.payload.unit = x.occurrence.payload.unit ∧ o.payload.offset = x.offset + 2 ∧
      t.frame.locals = x.thread.frame.locals ∧ t.frame.stack = x.thread.frame.stack
  /-- when it has returned or an exception has left it, it is never entered again, and each loop
  that asks for an item is exhausted; -/
  ended : ∀ k g x, m.exchange? (m.states s k) = some x → x.Leaves g → x.event ≠ .frameYield →
    ∀ n, k < n → ¬ (m.states s n).Opens g ∧
      ∀ y, m.exchange? (m.states s n) = some y → y.Attempts g →
        (m.states s (n + 1)).world = (m.states s n).world ∧
          ∃ a c, (m.states s (n + 1)).focus = .thread a c ∧ y.thread.Exhausts a
  /-- so it ends once; -/
  once : ∀ i k g x y, m.exchange? (m.states s i) = some x → m.exchange? (m.states s k) = some y →
    x.Leaves g → x.event ≠ .frameYield → y.Leaves g → y.event ≠ .frameYield → i = k
  /-- when it has returned, this is reported by the loop that it was running for, where that is, -/
  returned : ∀ n g x, m.exchange? (m.states s n) = some x → x.Leaves g → x.event = .frameReturn →
    ∃ t o j c, (m.states s (n + 1)).focus = .thread (.reporting t o j) c ∧
      o.event = .stopIteration ∧ o.payload.unit = .loaded t.frame.address t.frame.code ∧
      o.payload.offset = t.frame.offset ∧ t.LoopsOver g ∧ t.pile = x.thread.below
  /-- and it is never reported otherwise; -/
  stops : ∀ n t o j c, (m.states s n).focus = .thread (.reporting t o j) c →
    o.event = .stopIteration →
    ∃ k g x, n = k + 1 ∧ m.exchange? (m.states s k) = some x ∧ x.Leaves g ∧ x.event = .frameReturn
  /-- a loop that asks for an item while it runs raises an exception, and nothing has changed. -/
  running : ∀ n g x, m.exchange? (m.states s n) = some x → x.Attempts g →
    g ∈ (m.states s n).owners →
    (m.states s (n + 1)).world = (m.states s n).world ∧
      ∃ c, (m.states s (n + 1)).focus =
        .thread (x.thread.raise ⟨.valueError, "generator already executing"⟩) c

section Runs

variable (m : Machine σ) {w : World σ} (hw : w.heap.Loaded) (script : Script σ)
include hw

/-- How a generator is entered, with what it has kept. -/
theorem exists_kept {n g : ℕ} {t : Thread} {o : Occurrence}
    (h : (m.states (.initial w script) n).OpensWith g t o) :
    ∃ i f, n = i + 1 ∧ m.Keeps (.initial w script) i g f ∧
      t.frame = { f with started := true } ∧
      o = ⟨if f.started then .frameResume else .frameStart, .loaded f.address f.code, f.offset,
        .code none⟩ := by
  cases n with
  | zero =>
      obtain ⟨j, k, hf⟩ := h.focus
      cases hf
  | succ i =>
      rw [states_succ] at h
      obtain ⟨-, f, -, -, -, hstate, hframe, ho⟩ := h.exists_attempt (m.valid_states hw script i)
      exact ⟨i, f, rfl, m.keeps_of_suspended hw script hstate, hframe, ho⟩

/-- After the frame of a generator was left without a yield, the generator is finished. -/
theorem finished_of_leaves {k n g : ℕ} {x : Exchange}
    (hx : m.exchange? (m.states (.initial w script) k) = some x) (hl : x.Leaves g)
    (he : x.event ≠ .frameYield) (hn : k < n) :
    (m.states (.initial w script) n).world.heap.generatorState g = .finished := by
  have hvalid := (m.valid_states hw script k).report hx
  have hrunning := ((m.accounts_states hw script k).running g).1 (hl.mem_owners hx)
  have hlt := Heap.lt_size_of_running hrunning
  have hheap := (advance_of_exchange? hx).1
  have hfinished := hl.finished he hvalid.1 (by rwa [hheap])
  obtain ⟨hworld, -⟩ := follows_of_exchange? hx rfl
  have hsize := (m.passage_states hw script k).evolves.size
  refine m.finished_states hw script hn (Nat.lt_of_lt_of_le hlt hsize) ?_
  rw [states_succ, hworld]
  exact hfinished

theorem entered_first {n g : ℕ} {t : Thread} {o : Occurrence}
    (h : (m.states (.initial w script) n).OpensWith g t o)
    (hno : ∀ i < n, ¬ (m.states (.initial w script) i).Opens g) :
    o.event = .frameStart ∧ o.payload.offset = 0 := by
  obtain ⟨i, f, rfl, hkeeps, -, rfl⟩ := m.exists_kept hw script h
  cases hkeeps with
  | fresh hpc hstarted =>
      refine ⟨by rw [hstarted]; rfl, ?_⟩
      show offsetOf f.pc = 0
      rw [hpc]
      rfl
  | yielded hk _ hopened =>
      obtain ⟨i', hi', hopens⟩ := hopened
      exact absurd hopens (hno i' (by omega))

theorem entered_later {n g : ℕ} {t : Thread} {o : Occurrence}
    (h : (m.states (.initial w script) n).OpensWith g t o)
    (hbefore : ∃ i < n, (m.states (.initial w script) i).Opens g) :
    ∃ k < n, ∃ x, m.exchange? (m.states (.initial w script) k) = some x ∧ x.Leaves g ∧
      x.event = .frameYield ∧ (∀ i < n, (m.states (.initial w script) i).Opens g → i ≤ k) ∧
      o.event = .frameResume ∧ o.payload.unit = x.occurrence.payload.unit ∧
      o.payload.offset = x.offset + 2 ∧ t.frame.locals = x.thread.frame.locals ∧
      t.frame.stack = x.thread.frame.stack := by
  obtain ⟨i, f, rfl, hkeeps, hframe, rfl⟩ := m.exists_kept hw script h
  cases hkeeps with
  | fresh _ _ hno =>
      obtain ⟨i', hi', hopens⟩ := hbefore
      exact absurd hopens (hno i' (Nat.lt_succ_iff.1 hi'))
  | @yielded k x hk hyields _ hlast =>
      obtain ⟨hx, hl, he, rfl⟩ := hyields
      have hvalid := (m.valid_states hw script k).report hx
      have hstarted : x.thread.frame.started = true := Awaiting.started hvalid.1.sound
      have hyield := (Exchange.tells_event hvalid.1 he).of_yield
      refine ⟨k, Nat.lt_succ_of_lt hk, x, hx, hl, he,
        fun i' hi' => hlast i' (Nat.lt_succ_iff.1 hi'), ?_, hvalid.1.unit.symm,
        Exchange.offset_next hvalid hyield rfl, by rw [hframe]; rfl, by rw [hframe]; rfl⟩
      show (if x.thread.frame.started then Event.frameResume else .frameStart) = .frameResume
      rw [hstarted]
      rfl

theorem entered_iff (n g : ℕ) : (m.states (.initial w script) (n + 1)).Opens g ↔
    ∃ x f, m.exchange? (m.states (.initial w script) n) = some x ∧ x.Attempts g ∧
      x.thread.hasRoom = true ∧
      (m.states (.initial w script) n).world.heap.generatorState g = .suspended f := by
  have hvalid := m.valid_states hw script n
  rw [states_succ]
  constructor
  · intro hopens
    obtain ⟨t, o, h⟩ := hopens.exists_opensWith
    obtain ⟨x, f, hx, ha, hroom, hstate, -⟩ := h.exists_attempt hvalid
    exact ⟨x, f, hx, ha, hroom, hstate⟩
  · rintro ⟨x, f, hx, ha, hroom, hstate⟩
    exact ha.suspended hx hvalid hstate hroom

/-- A generator that is finished runs no more. -/
theorem not_mem_owners_of_finished {n g : ℕ}
    (hg : (m.states (.initial w script) n).world.heap.generatorState g = .finished) :
    g ∉ (m.states (.initial w script) n).owners := by
  intro hmem
  rw [(m.accounts_states hw script n).running, hg] at hmem
  cases hmem

/-- **A generator ends once.** -/
theorem ends_once {i k g : ℕ} {x y : Exchange}
    (hx : m.exchange? (m.states (.initial w script) i) = some x)
    (hy : m.exchange? (m.states (.initial w script) k) = some y) (hl : x.Leaves g)
    (he : x.event ≠ .frameYield) (hl' : y.Leaves g) (he' : y.event ≠ .frameYield) : i = k := by
  -- whichever is later finds the generator finished, though its frame is in a pile
  rcases Nat.lt_trichotomy i k with hlt | heq | hlt
  · have hfinished := m.finished_of_leaves hw script hx hl he hlt
    exact absurd (hl'.mem_owners hy) (m.not_mem_owners_of_finished hw script hfinished)
  · exact heq
  · have hfinished := m.finished_of_leaves hw script hy hl' he' hlt
    exact absurd (hl.mem_owners hx) (m.not_mem_owners_of_finished hw script hfinished)

/-- **Whatever is reported to have returned has returned** in the step before. -/
theorem return_of_stops {n : ℕ} {t : Thread} {o : Occurrence} {j : Juncture}
    {c : Except Exception Value → Script σ}
    (hf : (m.states (.initial w script) n).focus = .thread (.reporting t o j) c)
    (ho : o.event = .stopIteration) :
    ∃ k g x, n = k + 1 ∧ m.exchange? (m.states (.initial w script) k) = some x ∧ x.Leaves g ∧
      x.event = .frameReturn := by
  cases n with
  | zero => cases hf
  | succ k =>
      have hstops : (Activity.reporting t o j).stops = true := by simp [Activity.stops, ho]
      rw [states_succ] at hf
      rcases call_or_exchange hf with ⟨limit, f, henter⟩ | ⟨x, hx, hnext⟩
      · rw [henter, Thread.stops_enter] at hstops
        cases hstops
      · have hvalid := (m.valid_states hw script k).report hx
        rw [← hnext] at hstops
        obtain ⟨g, hl, he⟩ := Exchange.exists_of_stops hvalid.1 hstops
        exact ⟨k, g, x, rfl, hx, hl, he⟩

/-- **Every generator has one history**, in every run of built code. -/
theorem generators_live : m.LifeCycles (.initial w script) where
  alone n := (m.accounts_states hw script n).nodup
  entered := m.entered_iff hw script
  first _ _ _ _ := m.entered_first hw script
  later _ _ _ _ := m.entered_later hw script
  ended k g x hx hl he n hn := by
    have hfinished := m.finished_of_leaves hw script hx hl he hn
    refine ⟨fun hopens => ?_, fun y hy ha => ?_⟩
    · exact m.not_mem_owners_of_finished hw script hfinished hopens.mem_owners
    · rw [states_succ]
      exact ha.finished hy (m.valid_states hw script n) hfinished
  once _ _ _ _ _ := m.ends_once hw script
  returned n g x hx hl he := by
    have hvalid := (m.valid_states hw script n).report hx
    obtain ⟨caller, e, hnext, hloop, hpile⟩ := hl.next_of_return he hvalid.1
    obtain ⟨-, c, hfocus⟩ := follows_of_exchange? hx rfl
    rw [states_succ, hfocus]
    exact ⟨caller, _, .stopped, c, congrArg (Focus.thread · c) hnext, rfl, rfl, rfl, hloop, hpile⟩
  stops _ _ _ _ _ := m.return_of_stops hw script
  running n g x hx ha hg := by
    rw [(m.accounts_states hw script n).running] at hg
    rw [states_succ]
    exact ha.running hx (m.valid_states hw script n) hg

end Runs

/-- A loop asks a generator for an item and then for another one: the frame goes on behind its
yield. -/
theorem looping_lives : ∃ t o k x, (agreeing.states looping 18).OpensWith 0 t o ∧ k < 18 ∧
    agreeing.exchange? (agreeing.states looping k) = some x ∧ x.event = .frameYield ∧
    o.event = .frameResume ∧ o.payload.offset = 4 ∧ x.offset = 2 ∧
    t.frame.stack = x.thread.frame.stack := by
  have hlives : agreeing.LifeCycles looping :=
    generators_live agreeing loaded_listening (.call 9 (.function 0) [] fun r =>
      .call 9 (.function 1) r.toOption.toList fun _ => .done)
  obtain ⟨t, o, hopens, hoffset⟩ : ∃ t o, (agreeing.states looping 18).OpensWith 0 t o ∧
      o.payload.offset = 4 := ⟨_, _, ⟨⟨_, _, rfl⟩, rfl, rfl⟩, rfl⟩
  have hbefore : (agreeing.states looping 6).Opens 0 := ⟨_, _, _, _, rfl, rfl, rfl⟩
  obtain ⟨k, hk, x, hx, -, hyield, -, hresume, -, hnext, -, hstack⟩ :=
    hlives.later 18 0 t o hopens ⟨6, by decide, hbefore⟩
  exact ⟨t, o, k, x, hopens, hk, hx, hyield, hresume, hoffset, by omega, hstack⟩

end Machine

end Tracepoint
