/-
**How activations are entered.**

An activation is entered when a function is called with the arguments that it takes, or when a loop
asks a suspended generator for an item, if there is room for it and no callback objects to the
report of the call or of the loop.  Whatever is refused enters nothing.

Whether the entry is reported as a start or as a resumption depends on a mark in the frame.  The
mark tells the truth: a resumption is the entry of a generator whose entry was reported before.

Main definitions:

* `Tracepoint.Event.opensFrame`, `Tracepoint.Activity.opens` — reports of an entry;
* `Tracepoint.Machine.RanBefore` — the frame of a generator has run before a step;
* `Tracepoint.Machine.History` — the marks of all frames tell the truth.

Main results:

* `Tracepoint.Exchange.opens_next_iff`, `Tracepoint.Exchange.opens_next_iff_of_called`,
  `Tracepoint.Activity.opens_call_iff` — **when an activation is entered**;
* `Tracepoint.Machine.history_states` — the marks tell the truth in every run.
-/

import Tracepoint.Proofs.Machine.Exchange
import Tracepoint.Proofs.Thread.Suspension

set_option relaxedAutoImplicit false
set_option autoImplicit false

namespace Tracepoint

variable {σ : Type}

/-! ### Reports of an entry -/

/-- Whether an event says that an activation is entered. -/
def Event.opensFrame : Event → Bool
  | .frameStart | .frameResume => true
  | _ => false

/-- Whether a thread is just reporting that an activation is entered. -/
def Activity.opens : Activity → Bool
  | .reporting _ o _ => o.event.opensFrame
  | .finished _ => false

namespace Thread

/-- An activation is reported to be entered exactly at that juncture. -/
theorem opensFrame_iff {f : Frame} {e : Event} {d : Detail} {j : Juncture} (h : f.Tells e d j) :
    e.opensFrame = true ↔ j = .entered := by
  cases h <;> simp [Event.opensFrame]

theorem Continues.opens_eq_false {t : Thread} {a : Activity} (h : t.Continues a) :
    a.opens = false := by
  obtain ⟨t', e, d, j, -, ht, hj, rfl⟩ := h
  show e.opensFrame = false
  rwa [← Bool.not_eq_true, opensFrame_iff ht]

@[simp] theorem opens_enter (t : Thread) : t.enter.opens = true :=
  (opensFrame_iff t.tells_enter).2 rfl

/-- At a call an activation can be entered exactly if there is room and the function can run. -/
theorem enters_called_iff {h : Heap} {t : Thread} {n : ℕ}
    (hi : t.frame.current? = some (.call n)) (callable : Value) (args : List Value) :
    (∃ callee, t.Enters h (.called callable args) callee) ↔
      h.Runnable callable args ∧ t.hasRoom = true := by
  constructor
  · rintro ⟨callee, he⟩
    cases he with
    | call hroom _ hc hg hf => exact ⟨⟨_, _, rfl, hc, (Frame.of_start hf).1, hg⟩, hroom⟩
  · rintro ⟨⟨a, code, rfl, hc, hargs, hg⟩, hroom⟩
    obtain ⟨f, hf⟩ := Frame.exists_start (a := a) hargs
    exact ⟨⟨f, none⟩, .call hroom hi hc hg hf⟩

end Thread

/-! ### When an activation is entered -/

namespace Exchange

/-- **An exchange enters an activation** exactly if the answer is no fault and one can come on
top. -/
theorem opens_next_iff {x : Exchange} (hr : x.thread.Reports x.occurrence x.juncture) :
    x.next.opens = true ↔
      x.answer = .ok () ∧ ∃ callee, x.thread.Enters x.heap x.juncture callee := by
  constructor
  · intro hopens
    have hshift := (turn_next hr).shift
    generalize x.next = a at hshift hopens
    cases hshift with
    | stays _ hc => simp [hc.opens_eq_false] at hopens
    | leaves _ _ hc => simp [hc.opens_eq_false] at hopens
    | ends => cases hopens
    | enters hanswer he => exact ⟨hanswer, _, he⟩
  · rintro ⟨hanswer, callee, he⟩
    rw [next, hanswer, Thread.resume_of_enters he]
    exact Thread.opens_enter _

/-- **A call that is refused enters nothing**: what is called has to be a function that is no
generator's, with the number of arguments that it takes, and there has to be room. -/
theorem opens_next_iff_of_called {x : Exchange} (hr : x.thread.Reports x.occurrence x.juncture)
    {callable : Value} {args : List Value} (hj : x.juncture = .called callable args) :
    x.next.opens = true ↔
      x.answer = .ok () ∧ x.heap.Runnable callable args ∧ x.thread.hasRoom = true := by
  obtain ⟨n, hi⟩ := (tells_juncture hr hj).at_called
  rw [opens_next_iff hr, hj, Thread.enters_called_iff hi]

end Exchange

namespace Activity

theorem opens_call_iff (h : Heap) (limit : ℕ) (callable : Value) (args : List Value) :
    (call h limit callable args).2.opens = true ↔ h.Runnable callable args ∧ 0 < limit := by
  rcases call_cases h limit callable args with
    ⟨r, hr, hno⟩ | ⟨a, code, f, ha, hc, hg, hf, hlimit, henter⟩
  · rw [hr]
    exact ⟨nofun, fun hyes => absurd hyes hno⟩
  · rw [henter]
    exact ⟨fun _ => ⟨⟨a, code, ha, hc, (Frame.of_start hf).1, hg⟩, hlimit⟩,
      fun _ => Thread.opens_enter _⟩

end Activity

/-! ### Starts and resumptions -/

/-- The frame of a generator has run: it is suspended, and marked. -/
def Heap.HasRun (h : Heap) (g : ℕ) : Prop :=
  ∃ f, h.generatorState g = .suspended f ∧ f.started = true

/-- **What a thread is doing fits what has run**: those generators have run whose frames are in its
pile; the one that is just entered is reported to be resumed if it has run, and it is no longer
suspended. -/
structure Activity.Fits (ran : ℕ → Prop) (h : Heap) (a : Activity) : Prop where
  sound : a.Sound
  pile : ∀ t o j, a = .reporting t o j →
    ∀ b ∈ (if o.event.opensFrame then t.below else t.pile), ∀ g, b.generator = some g → ran g
  event : ∀ t o j, a = .reporting t o j → o.event.opensFrame = true →
    (o.event = .frameResume ↔ ∃ g, t.top.generator = some g ∧ ran g)
  running : ∀ t o j, a = .reporting t o j → o.event.opensFrame = true →
    ∀ g, t.top.generator = some g →
      g < h.generators.size ∧ ∀ f, h.generatorState g ≠ .suspended f

theorem Activity.fits_finished (ran : ℕ → Prop) (h : Heap) (r : Except Exception Value) :
    (Activity.finished r).Fits ran h := by
  refine ⟨trivial, ?_, ?_, ?_⟩ <;>
  · intro t o j ha
    cases ha

namespace Thread

variable {ran : ℕ → Prop} {h : Heap} {t : Thread}

theorem Continues.fits {a : Activity} (hc : t.Continues a) (hs : t.Sound)
    (hpile : ∀ b ∈ t.pile, ∀ g, b.generator = some g → ran g) : a.Fits ran h := by
  have hno := hc.opens_eq_false
  have hsound := hc.sound hs
  obtain ⟨t', e, d, j, hm, -, -, rfl⟩ := hc
  have hnot : e.opensFrame = false := hno
  refine ⟨hsound, ?_, ?_, ?_⟩
  · rintro _ _ _ ⟨⟩ b hb g hg
    rw [hnot, if_neg Bool.false_ne_true, pile, hm.below] at hb
    rcases List.mem_cons.1 hb with rfl | hb
    · exact hpile t.top (List.mem_cons_self ..) g (hm.generator.symm.trans hg)
    · exact hpile b (List.mem_cons_of_mem _ hb) g hg
  · rintro _ _ _ ⟨⟩ hopens
    rw [hnot] at hopens
    cases hopens
  · rintro _ _ _ ⟨⟩ hopens
    rw [hnot] at hopens
    cases hopens

/-- An activation that is entered is reported to be resumed exactly if its frame is marked. -/
theorem fits_enter (hsound : t.enter.Sound)
    (hbelow : ∀ b ∈ t.below, ∀ g, b.generator = some g → ran g)
    (hmark : t.frame.started = true ↔ ∃ g, t.top.generator = some g ∧ ran g)
    (hrunning : ∀ g, t.top.generator = some g →
      g < h.generators.size ∧ ∀ f, h.generatorState g ≠ .suspended f) :
    t.enter.Fits ran h := by
  refine ⟨hsound, ?_, ?_, ?_⟩
  · rintro _ _ _ ⟨⟩ b hb
    rw [if_pos ((opensFrame_iff t.tells_enter).2 rfl)] at hb
    exact hbelow b hb
  · rintro _ _ _ ⟨⟩ -
    refine Iff.trans ?_ hmark
    show (if t.frame.started then Event.frameResume else .frameStart) = .frameResume ↔ _
    cases t.frame.started <;> simp
  · rintro _ _ _ ⟨⟩ -
    exact hrunning

/-- **What an answer leads to fits what has run.** -/
theorem fits_resume {o : Occurrence} {j : Juncture} (hr : t.Reports o j)
    (hpile : ∀ b ∈ t.pile, ∀ g, b.generator = some g → ran g)
    (hmark : ∀ g f, h.generatorState g = .suspended f → (f.started = true ↔ ran g))
    (r : Except Exception Unit) : (t.resume h j r).2.Fits ran (t.resume h j r).1 := by
  have hshift := (turn_resume hr.sound hr.tells h r).shift
  generalize ha : (t.resume h j r).2 = a at hshift
  cases hshift with
  | stays _ hc => exact hc.fits hr.sound hpile
  | leaves _ hp hc =>
      refine hc.fits (hr.sound.pop? hp).2 fun b hb => hpile b (List.mem_cons_of_mem _ ?_)
      rwa [(pile_of_pop? hp).1]
  | ends => exact Activity.fits_finished ..
  | enters hanswer he =>
      subst hanswer
      rw [resume_of_enters he]
      refine fits_enter (he.sound hr.sound) hpile ?_ ?_
      · cases he with
        | call _ _ _ _ hf =>
            show _ = true ↔ ∃ g, none = some g ∧ _
            simp [push, frame, (Frame.of_start hf).2.2.2.2.1]
        | @loop l exit g rest f _ _ _ _ hg =>
            show f.started = true ↔ ∃ g', some g = some g' ∧ ran g'
            simp [hmark g f hg]
      · cases he with
        | call => exact nofun
        | @loop l exit g rest f _ _ _ _ hg =>
            rintro _ ⟨⟩
            have hlt := Heap.lt_size_of_suspended hg
            refine ⟨by simpa [Heap.setGenerator] using hlt, fun f' hf' => ?_⟩
            simp [Heap.generatorState_setGenerator, hlt] at hf'

end Thread

/-- A call from outside fits what has run, as it resumes no generator. -/
theorem Activity.fits_call (ran : ℕ → Prop) (h h' : Heap) (limit : ℕ) (callable : Value)
    (args : List Value) : (Activity.call h limit callable args).2.Fits ran h' := by
  have hsound := sound_call h limit callable args
  rcases call_cases h limit callable args with ⟨r, hr, -⟩ | ⟨a, code, f, -, -, -, hf, -, henter⟩
  · rw [hr]
    exact fits_finished ..
  · rw [henter] at hsound ⊢
    refine Thread.fits_enter hsound (fun b hb => ?_) ?_ fun g hg => ?_
    · cases hb
    · show f.started = true ↔ ∃ g, none = some g ∧ _
      simp [(Frame.of_start hf).2.2.2.2.1]
    · cases hg

/-! ### Runs -/

/-- In the state, running code reports that it enters the frame of a generator. -/
def State.Opens (s : State σ) (g : ℕ) : Prop :=
  ∃ t o j k, s.focus = .thread (.reporting t o j) k ∧ o.event.opensFrame = true ∧
    t.top.generator = some g

theorem State.not_opens {s : State σ} (h : s.occurrence? = none) (g : ℕ) : ¬ s.Opens g := by
  rintro ⟨t, o, j, k, hf, -⟩
  simp [State.occurrence?, hf] at h

namespace Machine

/-- **The frame of a generator has run before a step**: it had run when everything began, or it was
reported to be entered since. -/
def RanBefore (m : Machine σ) (s : State σ) (n g : ℕ) : Prop :=
  s.world.heap.HasRun g ∨ ∃ i < n, (m.states s i).Opens g

theorem ranBefore_succ {m : Machine σ} {s : State σ} {n g : ℕ} :
    m.RanBefore s (n + 1) g ↔ m.RanBefore s n g ∨ (m.states s n).Opens g := by
  constructor
  · rintro (h | ⟨i, hi, h⟩)
    · exact Or.inl (Or.inl h)
    · rcases Nat.lt_succ_iff_lt_or_eq.1 hi with hi | rfl
      · exact Or.inl (Or.inr ⟨i, hi, h⟩)
      · exact Or.inr h
  · rintro ((h | ⟨i, hi, h⟩) | h)
    · exact Or.inl h
    · exact Or.inr ⟨i, by omega, h⟩
    · exact Or.inr ⟨n, by omega, h⟩

/-- **The marks of the frames tell the truth** after `n` steps: a suspended frame is marked exactly
if it has run, and the frames of generators that run have been entered. -/
structure History (m : Machine σ) (s : State σ) (n : ℕ) : Prop where
  known : ∀ g, m.RanBefore s (n + 1) g → g < (m.states s n).world.heap.generators.size
  suspended : ∀ g f, (m.states s n).world.heap.generatorState g = .suspended f →
    (f.started = true ↔ m.RanBefore s (n + 1) g)
  reports : ∀ t o j, .reporting t o j ∈ (m.states s n).activities →
    t.Reports o j ∧ ∀ b ∈ t.pile, ∀ g, b.generator = some g → m.RanBefore s (n + 1) g
  event : ∀ t o j k, (m.states s n).focus = .thread (.reporting t o j) k →
    o.event.opensFrame = true →
    (o.event = .frameResume ↔ ∃ g, t.top.generator = some g ∧ m.RanBefore s n g)

section History

variable {m : Machine σ} {s : State σ} {n : ℕ}

/-- A step at which nothing happens to threads keeps the history. -/
theorem History.aside (h : m.History s n)
    (hg : (m.states s (n + 1)).world.heap.generators = (m.states s n).world.heap.generators)
    (ha : (m.states s (n + 1)).activities ⊆ (m.states s n).activities)
    (ho : (m.states s (n + 1)).occurrence? = none) : m.History s (n + 1) := by
  have same : ∀ g, m.RanBefore s (n + 1 + 1) g ↔ m.RanBefore s (n + 1) g := fun g => by
    rw [ranBefore_succ]
    exact ⟨fun hor => hor.resolve_right (State.not_opens ho g), Or.inl⟩
  refine ⟨fun g hran => ?_, fun g f hf => ?_, fun t o j hmem => ?_, fun t o j k hf => ?_⟩
  · rw [hg]
    exact h.known g ((same g).1 hran)
  · rw [Heap.generatorState, hg] at hf
    rw [same]
    exact h.suspended g f hf
  · simp only [same]
    exact h.reports t o j (ha hmem)
  · simp [State.occurrence?, hf] at ho

/-- A thread that goes on in a way that fits what has run keeps the history. -/
theorem History.follow (h : m.History s n) {levels : List (Level σ)} {go : Heap → Heap × Activity}
    {k : Except Exception Value → Script σ} {putAside : ℕ → Frame → Prop}
    (hs : m.states s (n + 1) = State.follow (m.states s n).world levels go k)
    (hl : levels <:+ (m.states s n).levels)
    (he : (m.states s n).world.heap.Evolves putAside (go (m.states s n).world.heap).1)
    (haside : ∀ g f, putAside g f → f.started = true ∧ m.RanBefore s (n + 1) g)
    (hfits : (go (m.states s n).world.heap).2.Fits (m.RanBefore s (n + 1))
      (go (m.states s n).world.heap).1) : m.History s (n + 1) := by
  have hheap : (m.states s (n + 1)).world.heap = (go (m.states s n).world.heap).1 := by
    rw [hs]
    rfl
  have hfocus : (m.states s (n + 1)).focus =
      .thread (go (m.states s n).world.heap).2 k := by
    rw [hs]
    rfl
  have hactivities : (m.states s (n + 1)).activities =
      (go (m.states s n).world.heap).2 :: levels.filterMap Level.activity? := by
    rw [hs]
    rfl
  generalize go (m.states s n).world.heap = next at he hfits hheap hfocus hactivities
  obtain ⟨heap', a⟩ := next
  have opened : ∀ {g}, (m.states s (n + 1)).Opens g →
      g < heap'.generators.size ∧ ∀ f, heap'.generatorState g ≠ .suspended f := by
    rintro g ⟨t, o, j, k', hf, hopens, hg⟩
    rw [hfocus, Focus.thread.injEq] at hf
    exact hfits.running t o j hf.1 hopens g hg
  refine ⟨fun g hran => ?_, fun g f hf => ?_, fun t o j hmem => ?_, fun t o j k' hf hopens => ?_⟩
  · rw [hheap]
    rcases ranBefore_succ.1 hran with hran | hopens
    · exact Nat.lt_of_lt_of_le (h.known g hran) he.size
    · exact (opened hopens).1
  · rw [hheap] at hf
    have hran : m.RanBefore s (n + 1 + 1) g ↔ m.RanBefore s (n + 1) g := by
      rw [ranBefore_succ]
      exact ⟨fun hor => hor.resolve_right fun hopens => (opened hopens).2 f hf, Or.inl⟩
    rw [hran]
    rcases he.suspended g f hf with hold | ⟨rfl, a', code, args, -, -, hstart⟩ | hputAside
    · exact h.suspended g f hold
    · rw [(Frame.of_start hstart).2.2.2.2.1]
      exact ⟨nofun, fun hran => absurd (h.known _ hran) (Nat.lt_irrefl _)⟩
    · obtain ⟨hstarted, hran⟩ := haside g f hputAside
      exact ⟨fun _ => hran, fun _ => hstarted⟩
  · rw [hactivities] at hmem
    rcases List.mem_cons.1 hmem with rfl | hmem
    · refine ⟨hfits.sound, fun b hb g hg => ?_⟩
      have hpile := hfits.pile t o j rfl
      rw [ranBefore_succ]
      by_cases hopens : o.event.opensFrame = true
      · rw [if_pos hopens] at hpile
        rcases List.mem_cons.1 hb with rfl | hb
        · exact Or.inr ⟨t, o, j, k, hfocus, hopens, hg⟩
        · exact Or.inl (hpile b hb g hg)
      · rw [if_neg hopens] at hpile
        exact Or.inl (hpile b hb g hg)
    · obtain ⟨hreports, hpile⟩ :=
        h.reports t o j (List.mem_append_right _ ((hl.filterMap _).subset hmem))
      exact ⟨hreports, fun b hb g hg => ranBefore_succ.2 (Or.inl (hpile b hb g hg))⟩
  · rw [hfocus, Focus.thread.injEq] at hf
    exact hfits.event t o j hf.1 hopens

/-- **The marks tell the truth in every run.** -/
theorem history_states (m : Machine σ) (w : World σ) (script : Script σ) (n : ℕ) :
    m.History (.initial w script) n := by
  induction n with
  | zero =>
      have hno : ∀ g, ¬ (m.states (.initial w script) 0).Opens g := State.not_opens rfl
      have hran : ∀ g, m.RanBefore (.initial w script) (0 + 1) g ↔ w.heap.HasRun g := fun g => by
        rw [ranBefore_succ]
        refine ⟨?_, fun hg => Or.inl (Or.inl hg)⟩
        rintro ((hg | ⟨i, hi, -⟩) | hopens)
        · exact hg
        · omega
        · exact absurd hopens (hno g)
      refine ⟨fun g hg => ?_, fun g f hf => ?_, fun t o j hmem => ?_, fun t o j k hf => ?_⟩
      · obtain ⟨f, hf, -⟩ := (hran g).1 hg
        exact Heap.lt_size_of_suspended hf
      · rw [hran]
        have hf' : w.heap.generatorState g = .suspended f := hf
        refine ⟨fun hstarted => ⟨f, hf', hstarted⟩, ?_⟩
        rintro ⟨f', hf'', hstarted⟩
        rw [hf', GeneratorState.suspended.injEq] at hf''
        rwa [hf'']
      · cases hmem
      · cases hf
  | succ n ih =>
      have hstride := m.stride_advance (m.states (.initial w script) n)
      rw [← states_succ] at hstride
      generalize hs : m.states (.initial w script) (n + 1) = s' at hstride
      cases hstride with
      | aside _ _ hg ha ho =>
          exact ih.aside (by rw [hs, hg]) (by rw [hs]; exact subset_of_aside ha) (by rw [hs, ho])
      | call hf =>
          exact ih.follow hs List.suffix_rfl (Activity.evolves_call ..) (fun _ _ => False.elim)
            (Activity.fits_call ..)
      | @exchange x levels k hx _ _ hl =>
          obtain ⟨hreports, hpile⟩ := ih.reports _ _ _ (report_mem_of_exchange? hx)
          refine ih.follow hs hl (Thread.evolves_resume hreports x.answer) ?_
            (Thread.fits_resume hreports hpile ih.suspended x.answer)
          rintro g f ⟨hg, -, rfl⟩
          exact ⟨Awaiting.started hreports.sound, hpile _ (List.mem_cons_self ..) g hg⟩

end History

end Machine

end Tracepoint
