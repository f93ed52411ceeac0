/-
**What a refusal costs a generator.**

A loop may ask a generator for an item and be refused before the frame of the generator is entered:
the generator runs already, or there is no room for its frame.  Either way an exception is raised in
the loop.  A generator that runs does not notice.  One that was suspended is given up for want of
room: it is finished, though its frame has not run, and the items that it had left are lost.  Other
than that a generator is finished only when its frame returns or an exception leaves it, and only
loops that ask for an item, and the frame itself, ever change what becomes of it.

Main definitions:

* `Tracepoint.Exchange.LacksRoom` — a loop asks for an item, and there is no room for the frame;
* `Tracepoint.Machine.Refuses` — **what refusals and endings do to generators**, in a run;
* `Tracepoint.Machine.SparesRefused` — a run in which no refusal costs a generator anything.

Main results:

* `Tracepoint.Thread.generatorState_resume`, `Tracepoint.Machine.exists_exchange_of_ne` — who
  changes what becomes of a generator;
* `Tracepoint.Exchange.LacksRoom.finished` — what the lack of room leads to;
* `Tracepoint.Machine.finishes_iff` — **why a generator is finished**;
* `Tracepoint.Machine.spares_refused_iff` — **refusals cost nothing exactly if there is room**.
-/

import Tracepoint.Proofs.Generator.LifeCycle

set_option relaxedAutoImplicit false
set_option autoImplicit false

namespace Tracepoint

variable {σ : Type}

/-! ### Who changes what becomes of a generator -/

namespace Thread

variable {h : Heap} {t : Thread} {g : ℕ}

/-- A loop changes what becomes of the generator that it asks for an item, which was suspended. -/
theorem generatorState_forIter {l : Label} (hi : t.frame.current? = some (.forIter l)) :
    (t.execute h (.forIter l)).1.generatorState g = h.generatorState g ∨
      t.LoopsOver g ∧ ∃ f, h.generatorState g = .suspended f := by
  simp only [execute]
  split
  · exact Or.inl rfl
  · split
    · exact Or.inl rfl
    · rename_i iterator rest hs
      unfold advanceIterator
      split
      · split <;> exact Or.inl rfl
      · rename_i g'
        by_cases hg : g' = g
        · subst hg
          split
          · exact Or.inl rfl
          · exact Or.inl rfl
          · rename_i f hf
            exact Or.inr ⟨⟨⟨l, hi⟩, rest, hs⟩, f, hf⟩
        · have hother : ∀ s, (h.setGenerator g' s).generatorState g = h.generatorState g := by
            intro s
            rw [Heap.generatorState_setGenerator, if_neg fun h => hg h.1]
          split
          · exact Or.inl rfl
          · exact Or.inl rfl
          · split <;> exact Or.inl (hother _)
      · exact Or.inl rfl

/-- A call changes nothing about the generators that there are. -/
theorem generatorState_makeCall (callable : Value) (args : List Value)
    (hlt : g < h.generators.size) :
    (t.makeCall h callable args).1.generatorState g = h.generatorState g := by
  unfold makeCall
  split
  · split
    · rfl
    · split
      · rfl
      · split
        · show (h.addGenerator _).1.generatorState g = _
          rw [Heap.generatorState_addGenerator, if_neg (Nat.ne_of_lt hlt)]
        · split <;> rfl
  · have hnative := (h.grows_callNative callable args).alike.generatorState g
    split
    · rename_i h' v heq
      rwa [heq] at hnative
    · rename_i h' e heq
      rwa [heq] at hnative

/-- **Who changes what becomes of a generator**: its own activation, when it is taken off, and a
loop that asks for an item and finds it suspended. -/
theorem generatorState_resume {o : Occurrence} {j : Juncture} (hr : t.Reports o j)
    (r : Except Exception Unit) (hlt : g < h.generators.size) :
    (t.resume h j r).1.generatorState g = h.generatorState g ∨
      (j.closes r = true ∧ t.top.generator = some g) ∨
      (j = .instruction ∧ r = .ok () ∧ t.LoopsOver g ∧ ∃ f, h.generatorState g = .suspended f) := by
  cases hj : j.closes r with
  | true =>
      rw [heap_of_closes hr.sound hj, settle]
      split
      · exact Or.inl rfl
      · rename_i g' hg'
        by_cases hg : g' = g
        · exact Or.inr (Or.inl ⟨rfl, hg ▸ hg'⟩)
        · left
          rw [Heap.generatorState_setGenerator, if_neg fun h => hg h.1]
  | false =>
      cases r with
      | error fault =>
          cases j with
          | unwound e => cases hj
          | _ => exact Or.inl rfl
      | ok u =>
          cases j with
          | instruction =>
              obtain ⟨-, i, hi⟩ := hr.tells.at_instruction
              have hcurrent : t.frame.code.instruction? t.frame.pc = some i := hi
              have hexecute : t.resume h .instruction (.ok u) = t.execute h i := by
                simp only [resume, proceed, executeCurrent, hcurrent]
              rw [hexecute]
              by_cases hloop : ∃ l, i = .forIter l
              · obtain ⟨l, rfl⟩ := hloop
                exact (generatorState_forIter hi).imp_right fun hasks => Or.inr ⟨rfl, rfl, hasks⟩
              · exact Or.inl ((grows_execute fun l hl => hloop ⟨l, hl⟩).alike.generatorState g)
          | called callable args => exact Or.inl (generatorState_makeCall callable args hlt)
          | returning v | yielding v | unwound e => cases hj
          | stopped =>
              left
              simp only [resume, proceed, leaveLoop]
              split <;> rfl
          | _ => exact Or.inl rfl

end Thread

/-- A call from outside changes nothing about the generators that there are. -/
theorem Activity.generatorState_call {h : Heap} {g : ℕ} (limit : ℕ) (callable : Value)
    (args : List Value) (hlt : g < h.generators.size) :
    (call h limit callable args).1.generatorState g = h.generatorState g := by
  unfold call
  split
  · split
    · rfl
    · split
      · rfl
      · split
        · show (h.addGenerator _).1.generatorState g = _
          rw [Heap.generatorState_addGenerator, if_neg (Nat.ne_of_lt hlt)]
        · split <;> rfl
  · exact (h.grows_callNative callable args).alike.generatorState g

/-- **A loop asks for an item, and there is no room** for the frame of the generator. -/
structure Exchange.LacksRoom (x : Exchange) (g : ℕ) : Prop where
  attempts : x.Attempts g
  room : x.thread.hasRoom = false

/-- A frame is left when it returns, yields or is unwound. -/
theorem Exchange.Leaves.event {x : Exchange} {g : ℕ} (h : x.Leaves g) :
    x.event = .frameReturn ∨ x.event = .frameYield ∨ x.event = .frameUnwind := by
  have hcloses := h.closes
  unfold Exchange.closes at hcloses
  split at hcloses
  · exact Or.inl ‹_›
  · exact Or.inr (Or.inl ‹_›)
  · exact Or.inr (Or.inr ‹_›)
  · cases hcloses

/-- A frame that yields is put aside: the generator is suspended behind the yield. -/
theorem Exchange.Leaves.suspended {x : Exchange} {g : ℕ} (h : x.Leaves g)
    (he : x.event = .frameYield) (hr : x.thread.Reports x.occurrence x.juncture)
    (hg : g < x.heap.generators.size) :
    (x.thread.resume x.heap x.juncture x.answer).1.generatorState g =
      .suspended x.thread.frame.advance := by
  have hcloses : x.juncture.closes x.answer = true := by
    rw [← closes_eq hr]
    exact h.closes
  have hleft : x.juncture.leftState x.thread.frame = .suspended x.thread.frame.advance := by
    have htells := tells_event hr he
    generalize x.juncture = j, x.occurrence.payload.detail = d at htells
    cases htells
    rfl
  rw [Thread.heap_of_closes hr.sound hcloses, hleft, Thread.settle, h.generator]
  simp only [Heap.generatorState_setGenerator, hg, and_self, if_true]

section Steps

variable {m : Machine σ} {s : State σ} {x : Exchange} {g : ℕ}

/-- What the lack of room leads to: an exception in the loop, and the generator is given up. -/
theorem Exchange.LacksRoom.finished (hl : x.LacksRoom g) (hx : m.exchange? s = some x)
    (hs : s.Valid) {f : Frame} (hg : s.world.heap.generatorState g = .suspended f) :
    (m.advance s).world = { s.world with heap := s.world.heap.setGenerator g .finished } ∧
      ∃ k, (m.advance s).focus = .thread (x.thread.raise .recursionLimit) k := by
  obtain ⟨l, exit, -, -, hresume⟩ := hl.attempts.resume_eq hx hs
  refine Machine.follows_of_exchange? hx (hresume.trans ?_)
  simp only [Thread.advanceIterator, hg, hl.room]
  rfl

/-- **What changes a generator is an exchange**: its frame is left, or a loop asks it for an
item. -/
theorem Machine.exists_exchange_of_ne (hs : s.Valid) (hlt : g < s.world.heap.generators.size)
    (hne : (m.advance s).world.heap.generatorState g ≠ s.world.heap.generatorState g) :
    ∃ x, m.exchange? s = some x ∧
      (x.Leaves g ∨ x.Attempts g ∧ ∃ f, s.world.heap.generatorState g = .suspended f) := by
  have hstride := m.stride_advance s
  generalize m.advance s = s' at hstride hne
  cases hstride with
  | aside _ hcodes hgenerators =>
      exact absurd (Heap.Alike.generatorState ⟨hcodes, hgenerators⟩ g) hne
  | call => exact absurd (Activity.generatorState_call _ _ _ hlt) hne
  | @exchange x levels k hx hh =>
      have hvalid : x.report.Valid := hs.report hx
      refine ⟨x, hx, ?_⟩
      rcases Thread.generatorState_resume hvalid.1 x.answer hlt with
        hsame | ⟨hcloses, htop⟩ | ⟨hj, hanswer, hloop, hf⟩
      · exact absurd hsame hne
      · exact Or.inl ⟨(Exchange.closes_eq hvalid.1).trans hcloses, htop⟩
      · exact Or.inr ⟨⟨(Exchange.tells_juncture hvalid.1 hj).at_instruction.1, hanswer, hloop⟩, hf⟩

end Steps

/-! ### Runs -/

namespace Machine

/-- What has become of a generator after `n` steps. -/
def generatorAt (m : Machine σ) (s : State σ) (n g : ℕ) : GeneratorState :=
  (m.states s n).world.heap.generatorState g

/-- **What refusals and endings do to generators** in a run: -/
structure Refuses (m : Machine σ) (s : State σ) : Prop where
  /-- a generator is finished when its frame returns or an exception leaves it, or when a loop finds
  it suspended and there is no room; -/
  finishes : ∀ n g, m.generatorAt s n g ≠ .finished →
    (m.generatorAt s (n + 1) g = .finished ↔ ∃ x, m.exchange? (m.states s n) = some x ∧
      (x.Leaves g ∧ (x.event = .frameReturn ∨ x.event = .frameUnwind) ∨
        x.LacksRoom g ∧ ∃ f, m.generatorAt s n g = .suspended f))
  /-- a loop that finds it running raises an exception, and nothing has changed; -/
  running : ∀ n g x, m.exchange? (m.states s n) = some x → x.Attempts g →
    m.generatorAt s n g = .running →
    (m.states s (n + 1)).world = (m.states s n).world ∧
      ∃ c, (m.states s (n + 1)).focus = .thread (x.thread.raise .generatorRunning) c
  /-- a loop for whose item there is no room raises an exception, and the generator is given up, -/
  crowded : ∀ n g x f, m.exchange? (m.states s n) = some x → x.LacksRoom g →
    m.generatorAt s n g = .suspended f →
    (m.states s (n + 1)).world = { (m.states s n).world with
        heap := (m.states s n).world.heap.setGenerator g .finished } ∧
      ∃ c, (m.states s (n + 1)).focus = .thread (x.thread.raise .recursionLimit) c
  /-- so that its frame is never entered again, and every loop is exhausted; -/
  lost : ∀ n g x f, m.exchange? (m.states s n) = some x → x.LacksRoom g →
    m.generatorAt s n g = .suspended f → ∀ k, n < k → ¬(m.states s k).Opens g ∧
      ∀ y, m.exchange? (m.states s k) = some y → y.Attempts g →
        (m.states s (k + 1)).world = (m.states s k).world ∧
          ∃ a c, (m.states s (k + 1)).focus = .thread a c ∧ y.thread.Exhausts a
  /-- and as long as no loop asks for an item, a suspended frame stays as it is. -/
  kept : ∀ n g f, m.generatorAt s n g = .suspended f →
    (∀ x, m.exchange? (m.states s n) = some x → ¬x.Attempts g) →
    m.generatorAt s (n + 1) g = .suspended f

/-- **No refusal costs a generator anything** in a run: -/
structure SparesRefused (m : Machine σ) (s : State σ) : Prop where
  /-- a generator is finished only when its frame returns or an exception leaves it; -/
  finishes : ∀ n g, m.generatorAt s n g ≠ .finished → m.generatorAt s (n + 1) g = .finished →
    ∃ x, m.exchange? (m.states s n) = some x ∧ x.Leaves g ∧
      (x.event = .frameReturn ∨ x.event = .frameUnwind)
  /-- a loop that finds it running raises an exception, and it still runs; -/
  running : ∀ n g x, m.exchange? (m.states s n) = some x → x.Attempts g →
    m.generatorAt s n g = .running → m.generatorAt s (n + 1) g = .running ∧
      ∃ c, (m.states s (n + 1)).focus = .thread (x.thread.raise .generatorRunning) c
  /-- a loop for whose item there is no room raises an exception, and the frame is as it was. -/
  crowded : ∀ n g x f, m.exchange? (m.states s n) = some x → x.LacksRoom g →
    m.generatorAt s n g = .suspended f → m.generatorAt s (n + 1) g = .suspended f ∧
      ∃ c, (m.states s (n + 1)).focus = .thread (x.thread.raise .recursionLimit) c

section Runs

variable (m : Machine σ) {w : World σ} (hw : w.heap.Loaded) (script : Script σ)
include hw

/-- A generator that lacks room is finished in the next step. -/
theorem generatorAt_succ_of_lacksRoom {n g : ℕ} {x : Exchange} {f : Frame}
    (hx : m.exchange? (m.states (.initial w script) n) = some x) (hl : x.LacksRoom g)
    (hg : m.generatorAt (.initial w script) n g = .suspended f) :
    m.generatorAt (.initial w script) (n + 1) g = .finished := by
  have hworld := (hl.finished hx (m.valid_states hw script n) hg).1
  rw [generatorAt, states_succ, hworld]
  have hlt := Heap.lt_size_of_suspended hg
  show (Heap.setGenerator _ g .finished).generatorState g = .finished
  rw [Heap.generatorState_setGenerator, if_pos ⟨rfl, hlt⟩]

/-- A generator whose frame yields is suspended in the next step. -/
theorem generatorAt_succ_of_yields {n g : ℕ} {x : Exchange}
    (hx : m.exchange? (m.states (.initial w script) n) = some x) (hleaves : x.Leaves g)
    (he : x.event = .frameYield)
    (hlt : g < (m.states (.initial w script) n).world.heap.generators.size) :
    m.generatorAt (.initial w script) (n + 1) g = .suspended x.thread.frame.advance := by
  have hreport := (m.valid_states hw script n).report hx
  obtain ⟨hheap, -⟩ := advance_of_exchange? hx
  obtain ⟨hworld, -⟩ := follows_of_exchange? hx rfl
  rw [generatorAt, states_succ, hworld]
  exact hleaves.suspended he hreport.1 (hheap ▸ hlt)

/-- A generator that has room for its frame runs in the next step. -/
theorem generatorAt_succ_of_hasRoom {n g : ℕ} {x : Exchange} {f : Frame}
    (hx : m.exchange? (m.states (.initial w script) n) = some x) (ha : x.Attempts g)
    (hg : m.generatorAt (.initial w script) n g = .suspended f)
    (hroom : x.thread.hasRoom = true) :
    m.generatorAt (.initial w script) (n + 1) g = .running := by
  have hopens := ha.suspended hx (m.valid_states hw script n) hg hroom
  rw [← states_succ] at hopens
  exact ((m.accounts_states hw script (n + 1)).running g).1 hopens.mem_owners

/-- **Why a generator is finished.** -/
theorem finishes_iff {n g : ℕ} (hne : m.generatorAt (.initial w script) n g ≠ .finished) :
    m.generatorAt (.initial w script) (n + 1) g = .finished ↔
      ∃ x, m.exchange? (m.states (.initial w script) n) = some x ∧
        (x.Leaves g ∧ (x.event = .frameReturn ∨ x.event = .frameUnwind) ∨
          x.LacksRoom g ∧ ∃ f, m.generatorAt (.initial w script) n g = .suspended f) := by
  have hvalid := m.valid_states hw script n
  constructor
  · intro hfinished
    have hchanged : (m.advance (m.states (.initial w script) n)).world.heap.generatorState g ≠
        (m.states (.initial w script) n).world.heap.generatorState g := by
      rw [generatorAt, states_succ] at hfinished
      rw [hfinished]
      exact Ne.symm hne
    obtain ⟨x, hx, hleaves | ⟨hasks, f, hf⟩⟩ :=
      exists_exchange_of_ne hvalid (Heap.lt_size_of_ne hne) hchanged
    · refine ⟨x, hx, Or.inl ⟨hleaves, ?_⟩⟩
      rcases hleaves.event with he | he | he
      · exact Or.inl he
      · have hsuspended := m.generatorAt_succ_of_yields hw script hx hleaves he
          (Heap.lt_size_of_ne hne)
        rw [hfinished] at hsuspended
        cases hsuspended
      · exact Or.inr he
    · refine ⟨x, hx, Or.inr ⟨⟨hasks, ?_⟩, f, hf⟩⟩
      rw [Bool.eq_false_iff]
      intro hroom
      have hrunning := m.generatorAt_succ_of_hasRoom hw script hx hasks hf hroom
      rw [hfinished] at hrunning
      cases hrunning
  · rintro ⟨x, hx, ⟨hleaves, he⟩ | ⟨hl, f, hf⟩⟩
    · refine m.finished_of_leaves hw script hx hleaves ?_ (Nat.lt_succ_self n)
      rcases he with he | he <;> rw [he] <;> decide
    · exact m.generatorAt_succ_of_lacksRoom hw script hx hl hf

/-- **What refusals and endings do to generators**, in every run of built code. -/
theorem refuses : m.Refuses (.initial w script) where
  finishes _ _ := m.finishes_iff hw script
  running n g x hx ha hg := by
    rw [states_succ]
    exact ha.running hx (m.valid_states hw script n) hg
  crowded n g x f hx hl hg := by
    rw [states_succ]
    exact hl.finished hx (m.valid_states hw script n) hg
  lost n g x f hx hl hg k hk := by
    have hlt := Heap.lt_size_of_suspended hg
    have hsize := (m.passage_states hw script n).evolves.size
    have hfinished := m.finished_states hw script hk (Nat.lt_of_lt_of_le hlt hsize)
      (m.generatorAt_succ_of_lacksRoom hw script hx hl hg)
    refine ⟨fun hopens => m.not_mem_owners_of_finished hw script hfinished hopens.mem_owners,
      fun y hy ha => ?_⟩
    rw [states_succ]
    exact ha.finished hy (m.valid_states hw script k) hfinished
  kept n g f hg hno := by
    by_contra hne
    rw [generatorAt, states_succ] at hne
    obtain ⟨x, hx, hleaves | ⟨hasks, -⟩⟩ := exists_exchange_of_ne (m.valid_states hw script n)
      (Heap.lt_size_of_suspended hg) fun heq => hne (heq.trans hg)
    · -- a frame that is left was running
      have hrunning := ((m.accounts_states hw script n).running g).1 (hleaves.mem_owners hx)
      rw [generatorAt, hrunning] at hg
      cases hg
    · exact hno x hx hasks

/-- **Refusals cost nothing exactly if there is room** for every item that a loop asks for. -/
theorem spares_refused_iff : m.Refuses (.initial w script) ∧
    (m.SparesRefused (.initial w script) ↔
      ∀ n g x f, m.exchange? (m.states (.initial w script) n) = some x → x.Attempts g →
        m.generatorAt (.initial w script) n g = .suspended f → x.thread.hasRoom = true) := by
  have hrefuses := m.refuses hw script
  refine ⟨hrefuses, fun hspares n g x f hx ha hg => ?_, fun hroom => ⟨?_, ?_, ?_⟩⟩
  · rw [← Bool.not_eq_false]
    intro hno
    have hkept := (hspares.crowded n g x f hx ⟨ha, hno⟩ hg).1
    rw [m.generatorAt_succ_of_lacksRoom hw script hx ⟨ha, hno⟩ hg] at hkept
    cases hkept
  · intro n g hne hfinished
    obtain ⟨x, hx, hleaves | ⟨hl, f, hf⟩⟩ := (hrefuses.finishes n g hne).1 hfinished
    · exact ⟨x, hx, hleaves⟩
    · have hno := hl.room
      rw [hroom n g x f hx hl.attempts hf] at hno
      cases hno
  · intro n g x hx ha hg
    obtain ⟨hworld, hraise⟩ := hrefuses.running n g x hx ha hg
    exact ⟨by rw [generatorAt, hworld]; exact hg, hraise⟩
  · intro n g x f hx hl hf
    have hno := hl.room
    rw [hroom n g x f hx hl.attempts hf] at hno
    cases hno

end Runs

/-! ### An item that is lost -/

/-- A function that returns the first item of its argument. -/
def first : Code where
  name := "first"
  firstLine := 5
  params := 1
  locals := 1
  isGenerator := false
  rows := #[⟨.loadLocal 0, none, false⟩, ⟨.forIter ⟨0⟩, none, false⟩, ⟨.ret, none, false⟩,
    ⟨.loadConst 0, none, false⟩, ⟨.ret, none, false⟩]
  labels := #[3]
  handlers := []
  consts := #[.str "none"]

/-- A function that asks the other one for the first item, and takes it itself if that fails. -/
def retry : Code where
  name := "retry"
  firstLine := 9
  params := 1
  locals := 1
  isGenerator := false
  rows := #[⟨.loadConst 0, none, false⟩, ⟨.loadLocal 0, none, false⟩, ⟨.call 1, none, false⟩,
    ⟨.ret, none, false⟩, ⟨.pop, none, false⟩, ⟨.loadLocal 0, none, false⟩,
    ⟨.forIter ⟨2⟩, none, false⟩, ⟨.ret, none, false⟩, ⟨.loadConst 1, none, false⟩,
    ⟨.ret, none, false⟩]
  labels := #[0, 4, 8]
  handlers := [⟨0, 4, 4, 0⟩]
  consts := #[.function 1, .str "lost"]

def retryWorld : World Unit :=
  ⟨.empty, { Heap.empty with codes := #[once, first, retry] }, ()⟩

/-- It is called with a generator of one item, and with room for two activations. -/
def retrying : State Unit :=
  .initial retryWorld (.call 2 (.function 0) [] fun r =>
    .call 2 (.function 2) r.toOption.toList fun _ => .done)

theorem loaded_retryWorld : retryWorld.heap.Loaded := by
  have honce : once.Built := loaded_listening.built 0 once rfl
  have hfirst : first.Built := Source.built_of_build
    (s := ⟨"first", 5, 1, false, [.label, .emit (.loadLocal 0), .emit (.forIter ⟨0⟩), .emit .ret,
      .bind ⟨0⟩, .load (.str "none"), .emit .ret]⟩)
    rfl
  have hretry : retry.Built := Source.built_of_build
    (s := ⟨"retry", 9, 1, false, [.label, .label, .label, .bind ⟨0⟩, .load (.function 1),
      .emit (.loadLocal 0), .emit (.call 1), .emit .ret, .bind ⟨1⟩, .emit .pop,
      .emit (.loadLocal 0), .emit (.forIter ⟨2⟩), .emit .ret, .bind ⟨2⟩, .load (.str "lost"),
      .emit .ret, .handler ⟨⟨0⟩, ⟨1⟩, ⟨1⟩, 0⟩]⟩)
    rfl
  refine ⟨fun a code hc => ?_, rfl⟩
  match a with
  | 0 =>
      cases hc
      exact honce
  | 1 =>
      cases hc
      exact hfirst
  | 2 =>
      cases hc
      exact hretry
  | a + 3 => cases hc

/-- The function has just called the other one. -/
def asking : State Unit :=
  ⟨⟨.empty, { Heap.empty with
      codes := #[once, first, retry]
      generators := #[⟨"once", .suspended ⟨0, once, 0, #[], [], none, false, false⟩⟩] }, ()⟩, [],
    .thread (.reporting (.start 2 ⟨⟨2, retry, 2, #[.generator 0], [], none, false, true⟩, none⟩)
      ⟨.call, .loaded 2 retry, 4, .call (.function 1) (some (.generator 0))⟩
      (.called (.function 1) [.generator 0])) fun _ => .done⟩

theorem states_retrying (n : ℕ) : agreeing.states retrying (n + 7) = agreeing.states asking n := by
  have hasking : agreeing.states retrying 7 = asking := rfl
  rw [states_add, hasking]

/-- The other function asks for the item, and there is no room. -/
theorem retrying_lacksRoom : ∃ x f, agreeing.exchange? (agreeing.states retrying 10) = some x ∧
    x.LacksRoom 0 ∧ agreeing.generatorAt retrying 10 0 = .suspended f := by
  rw [generatorAt, states_retrying 3]
  exact ⟨_, _, rfl, ⟨⟨rfl, rfl, ⟨_, rfl⟩, _, rfl⟩, rfl⟩, rfl⟩

/-- The generator is given up, and the function that asks next finds no item. -/
theorem item_lost :
    (∃ x f, agreeing.exchange? (agreeing.states retrying 10) = some x ∧ x.LacksRoom 0 ∧
      agreeing.generatorAt retrying 10 0 = .suspended f) ∧
    agreeing.generatorAt retrying 11 0 = .finished ∧
    (∃ k, (agreeing.states retrying 22).focus = .thread (.finished (.ok (.str "lost"))) k) ∧
    ¬agreeing.SparesRefused retrying := by
  have hfinished : agreeing.generatorAt retrying 11 0 = .finished := by
    rw [generatorAt, states_retrying 4]
    rfl
  refine ⟨retrying_lacksRoom, hfinished, ?_, fun hspares => ?_⟩
  · rw [states_retrying 15]
    exact ⟨_, rfl⟩
  · obtain ⟨x, f, hx, hl, hf⟩ := retrying_lacksRoom
    have hkept := (hspares.crowded 10 0 x f hx hl hf).1
    rw [hfinished] at hkept
    cases hkept

/-- From then on its frame is never entered. -/
theorem retrying_never_entered :
    retryWorld.heap.Loaded ∧ ∀ k, 10 < k → ¬(agreeing.states retrying k).Opens 0 := by
  obtain ⟨x, f, hx, hl, hf⟩ := retrying_lacksRoom
  obtain ⟨hrefuses, -⟩ := spares_refused_iff agreeing loaded_retryWorld
    (.call 2 (.function 0) [] fun r => .call 2 (.function 2) r.toOption.toList fun _ => .done)
  exact ⟨loaded_retryWorld, fun k hk => (hrefuses.lost 10 0 x f hx hl hf k hk).1⟩

end Machine

end Tracepoint
