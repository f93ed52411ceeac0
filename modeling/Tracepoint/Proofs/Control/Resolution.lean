/-
**What becomes of exceptions.**

An exception is raised in a frame, which is reported at the instruction that the frame is at.  What
is reported next is what becomes of it: it is handled in the frame, where the last handler that
covers the instruction begins, or it leaves the frame and is raised in the one below.  A callback
that objects to one of these reports puts its fault in the place of the exception, and nothing else
changes.  So every report of an exception that is raised is settled by one report of the other two
kinds, and these are made on no other occasion.

Main definitions:

* `Tracepoint.Activity.resolves`, `Tracepoint.Exchange.resolves` — reports of what becomes of an
  exception;
* `Tracepoint.Machine.Resolution` — the exceptions of a call are resolved.

Main results:

* `Tracepoint.Thread.exists_route_eq`, `Tracepoint.Thread.leaveRaising_of_below`,
  `Tracepoint.Thread.exists_fetch` — handling, leaving, and going on behind a handler;
* `Tracepoint.Exchange.resolves_next_iff` — **what resolves an exception comes after its raise**;
* `Tracepoint.Activity.Course.countP_resolves` — raises and resolutions in a course;
* `Tracepoint.Machine.every_raise_resolved` — **every raise is resolved once, in its frame**.
-/

import Tracepoint.Proofs.Control.Bracket

set_option relaxedAutoImplicit false
set_option autoImplicit false

namespace Tracepoint

variable {σ : Type}

/-! ### Handling, leaving and going on -/

namespace Thread

/-- **A handler gets the bottom of the stack**, as much of it as it wants and there is. -/
theorem exists_route_eq {t : Thread} {handler : Handler}
    (h : t.frame.code.handler? t.frame.pc = some handler) (e : Exception) :
    ∃ above bottom, t.frame.stack = above ++ bottom ∧
      bottom.length = min handler.depth t.frame.stack.length ∧
      t.route e = (t.withFrame { t.frame with
        pc := handler.target, jumped := true, stack := bottom }).report
          .exceptionHandled e.told (.handled e) := by
  refine ⟨t.frame.stack.take (t.frame.stack.length - handler.depth),
    t.frame.stack.drop (t.frame.stack.length - handler.depth),
    (List.take_append_drop ..).symm, ?_, ?_⟩
  · rw [List.length_drop]
    omega
  · simp only [route, h]
    rfl

theorem route_eq_of_none {t : Thread} (h : t.frame.code.handler? t.frame.pc = none)
    (e : Exception) : t.route e = t.report .frameUnwind e.told (.unwound e) := by
  simp only [route, h]
  rfl

theorem leaveRaising_of_nil {t : Thread} (h : t.below = []) (e : Exception) :
    t.leaveRaising e = .finished (.error e) := by
  rw [leaveRaising, pop?_eq_none h]

/-- An exception that leaves a frame is raised in the one below. -/
theorem leaveRaising_of_below {t : Thread} {a : Activation} {rest : List Activation}
    (h : t.below = a :: rest) (e : Exception) :
    ∃ caller : Thread, caller.limit = t.limit ∧ caller.top = a ∧ caller.below = rest ∧
      t.leaveRaising e = caller.raise e := by
  obtain ⟨caller, hp, hlimit, htop, hbelow⟩ := pop?_eq_some h
  exact ⟨caller, hlimit, htop, hbelow, by rw [leaveRaising, hp]⟩

/-- A thread turns to its current instruction with the line or with the instruction itself, and
leaves the stack as it is. -/
theorem exists_fetch (t : Thread) :
    ∃ t' o j, t.fetch = .reporting t' o j ∧ t.Alike t' ∧ t'.frame.stack = t.frame.stack ∧
      (t.frame.current?.isSome = true → o.event = .line ∨ o.event = .instruction) := by
  have same : ∀ lastLine jumped, t.Alike (t.withFrame { t.frame with lastLine, jumped }) :=
    fun lastLine jumped => alike_withFrame (t.frame.alike_line lastLine jumped)
  have hfetches := t.fetches_fetch
  generalize t.fetch = a at hfetches
  cases hfetches with
  | lost hnone => exact ⟨_, _, _, rfl, .refl t, rfl, fun hsome => by simp [hnone] at hsome⟩
  | line => exact ⟨_, _, _, rfl, same _ _, rfl, fun _ => Or.inl rfl⟩
  | instruction => exact ⟨_, _, _, rfl, same _ _, rfl, fun _ => Or.inr rfl⟩

end Thread

/-! ### Reports of what becomes of an exception -/

/-- Whether an event says what becomes of an exception. -/
def Event.resolves : Event → Bool
  | .exceptionHandled | .frameUnwind => true
  | _ => false

/-- Whether a thread is just reporting what becomes of an exception. -/
def Activity.resolves : Activity → Bool
  | .reporting _ o _ => o.event.resolves
  | .finished _ => false

namespace Thread

theorem Proceeds.resolves_eq_false {t : Thread} {a : Activity} (h : t.Proceeds a) :
    a.resolves = false := by
  cases h with
  | reports _ ht hj => cases ht <;> first | rfl | cases hj
  | fails => rfl
  | lost => rfl

theorem resolves_route (t : Thread) (e : Exception) : (t.route e).resolves = true := by
  have hroutes := t.routes_route e
  generalize t.route e = a at hroutes
  cases hroutes <;> rfl

theorem resolves_enter (t : Thread) : t.enter.resolves = false := by
  show Event.resolves (if t.frame.started then .frameResume else .frameStart) = false
  split <;> rfl

end Thread

namespace Exchange

/-- An exception was raised. -/
def raises (x : Exchange) : Bool := x.event == .raise

/-- It was reported what becomes of an exception. -/
def resolves (x : Exchange) : Bool := x.event.resolves

section Reports

variable {x : Exchange} (hr : x.thread.Reports x.occurrence x.juncture)
include hr

/-- What a raise leads to. -/
theorem next_of_raise (he : x.event = .raise) :
    ∃ e, x.juncture = .raised e ∧ x.occurrence.payload.detail = e.told ∧
      x.next = x.thread.route (e.carried x.answer) := by
  obtain ⟨e, hj, htold⟩ := (tells_event hr he).of_raise
  refine ⟨e, hj, htold, ?_⟩
  rw [next, hj]
  cases x.answer <;> rfl

/-- What the entry of a handler leads to. -/
theorem next_of_handled (he : x.event = .exceptionHandled) :
    ∃ e, x.juncture = .handled e ∧ x.occurrence.payload.detail = e.told ∧
      (x.answer = .ok () →
        x.next = (x.thread.withFrame (x.thread.frame.push (.exception e))).fetch) ∧
      ∀ fault, x.answer = .error fault →
        x.next = (x.thread.withFrame (x.thread.frame.push (.exception e))).raise fault := by
  obtain ⟨e, hj, htold⟩ := (tells_event hr he).of_handled
  refine ⟨e, hj, htold, fun ha => ?_, fun fault ha => ?_⟩
  · rw [next, hj, ha]
    rfl
  · rw [next, hj, ha]
    rfl

/-- What an unwinding leads to. -/
theorem next_of_unwind (he : x.event = .frameUnwind) :
    ∃ e, x.juncture = .unwound e ∧ x.occurrence.payload.detail = e.told ∧
      x.next = x.thread.leaveRaising (e.carried x.answer) := by
  obtain ⟨e, hj, htold⟩ := (tells_event hr he).of_unwind
  refine ⟨e, hj, htold, ?_⟩
  rw [next, hj]
  cases x.answer <;> rfl

/-- **What becomes of an exception is reported right after its raise**, and on no other
occasion. -/
theorem resolves_next_iff : x.next.resolves = true ↔ x.event = .raise := by
  constructor
  · intro hres
    have hturn := turn_next hr
    generalize x.next = a at hturn hres
    cases hturn with
    | goes _ _ hc => simp [hc.proceeds.resolves_eq_false] at hres
    | leaves _ _ _ hc => simp [hc.proceeds.resolves_eq_false] at hres
    | enters => simp [Thread.resolves_enter] at hres
    | fails | stops | unwinds | strays | ends => cases hres
    | resolves hj => exact (tells_juncture hr hj).at_raised
  · intro he
    obtain ⟨e, -, -, hnext⟩ := next_of_raise hr he
    rw [hnext]
    exact Thread.resolves_route ..

end Reports

end Exchange

/-! ### Raises and resolutions in a course -/

namespace Activity

theorem resolves_call (h : Heap) (limit : ℕ) (callable : Value) (args : List Value) :
    (call h limit callable args).2.resolves = false := by
  rcases call_cases h limit callable args with ⟨r, hr, -⟩ | ⟨_, _, f, -, -, -, -, -, henter⟩
  · rw [hr]
    rfl
  · rw [henter]
    exact Thread.resolves_enter _

/-- What a thread is doing is where its last exchange has led. -/
theorem Course.eq_or_eq_next {a b : Activity} {xs : List Exchange} (h : Course a xs b) :
    (xs = [] ∧ b = a) ∨ ∃ ys x, xs = ys ++ [x] ∧ b = x.next := by
  induction h with
  | refl a => exact Or.inl ⟨rfl, rfl⟩
  | @step x xs b _ ih =>
      rcases ih with ⟨rfl, rfl⟩ | ⟨ys, y, rfl, rfl⟩
      · exact Or.inr ⟨[], x, rfl, rfl⟩
      · exact Or.inr ⟨x :: ys, y, rfl, rfl⟩

/-- **There are as many resolutions as raises** in a course; the one that is being reported counts
as soon as the report is answered. -/
theorem Course.countP_resolves {a b : Activity} {xs : List Exchange} (h : Course a xs b)
    (ha : a.Sound) :
    xs.countP Exchange.raises + a.resolves.toNat =
      xs.countP Exchange.resolves + b.resolves.toNat := by
  induction h with
  | refl a => rfl
  | @step x xs b _ ih =>
      have hxs := ih (Exchange.sound_next ha)
      have hnext : x.next.resolves = x.raises := by
        rw [Bool.eq_iff_iff, Exchange.resolves_next_iff ha, Exchange.raises, beq_iff_eq]
      rw [hnext] at hxs
      have hreport : x.report.resolves = x.resolves := rfl
      rw [hreport, List.countP_cons, List.countP_cons]
      cases hraises : x.raises <;> cases hresolves : x.resolves <;>
        simp only [hraises, if_true, Bool.false_eq_true, if_false, Bool.toNat_true,
          Bool.toNat_false] at hxs ⊢ <;> omega

end Activity

namespace Exchange

theorem countP_raises (xs : List Exchange) :
    xs.countP raises = (xs.map event).count .raise := by
  induction xs with
  | nil => rfl
  | cons x xs ih =>
      simp only [List.countP_cons, List.map_cons, List.count_cons, ih, raises]
      rfl

theorem countP_resolves (xs : List Exchange) :
    xs.countP resolves =
      (xs.map event).count .exceptionHandled + (xs.map event).count .frameUnwind := by
  induction xs with
  | nil => rfl
  | cons x xs ih =>
      have hx : x.resolves = (x.event == .exceptionHandled || x.event == .frameUnwind) := by
        unfold resolves
        cases x.event <;> rfl
      simp only [List.countP_cons, List.map_cons, List.count_cons, ih, hx]
      cases x.event <;> simp <;> omega

end Exchange

/-! ### Calls -/

namespace Machine

/-- **The exceptions of a call are resolved** in its first `n` steps. -/
structure Resolution (m : Machine σ) (s : State σ) (n : ℕ) : Prop where
  /-- A raise is at the current instruction.  The exception, or the fault in its place, is handled
  next, at the target of the handler and above the bottom of the stack, or leaves the frame. -/
  raised : ∀ i < n, ∀ x, m.exchangeAt? s i = some x → x.event = .raise →
    ∃ e : Exception, x.occurrence.payload.detail = e.told ∧
      x.occurrence.payload.unit = .loaded x.thread.frame.address x.thread.frame.code ∧
      x.occurrence.payload.offset = offsetOf x.thread.frame.pc ∧
      (∀ handler, x.thread.frame.code.handler? x.thread.frame.pc = some handler →
        ∃ above bottom, x.thread.frame.stack = above ++ bottom ∧
          bottom.length = min handler.depth x.thread.frame.stack.length ∧
          m.activity? s (i + 1) = some ((x.thread.withFrame { x.thread.frame with
            pc := handler.target, jumped := true, stack := bottom }).report .exceptionHandled
              (e.carried x.answer).told (.handled (e.carried x.answer)))) ∧
      (x.thread.frame.code.handler? x.thread.frame.pc = none →
        m.activity? s (i + 1) = some (x.thread.report .frameUnwind
          (e.carried x.answer).told (.unwound (e.carried x.answer))))
  /-- Behind the entry of a handler the frame goes on at the handler, with the exception on its
  stack; a fault is raised there. -/
  handled : ∀ i < n, ∀ x, m.exchangeAt? s i = some x → x.event = .exceptionHandled →
    ∃ (e : Exception) (t : Thread) (o : Occurrence) (j : Juncture),
      x.occurrence.payload.detail = e.told ∧
      m.activity? s (i + 1) = some (.reporting t o j) ∧ x.thread.Alike t ∧
      t.frame.stack = .exception e :: x.thread.frame.stack ∧
      (x.answer = .ok () → x.thread.frame.current?.isSome = true →
        o.event = .line ∨ o.event = .instruction) ∧
      ∀ fault, x.answer = .error fault → o.event = .raise ∧ o.payload.detail = fault.told
  /-- What leaves a frame is raised in the frame below, or is the result of the call. -/
  unwound : ∀ i < n, ∀ x, m.exchangeAt? s i = some x → x.event = .frameUnwind →
    ∃ e : Exception, x.occurrence.payload.detail = e.told ∧
      (x.thread.below = [] →
        m.activity? s (i + 1) = some (.finished (.error (e.carried x.answer)))) ∧
      ∀ caller rest, x.thread.below = caller :: rest →
        ∃ t : Thread, t.top = caller ∧ t.below = rest ∧
          m.activity? s (i + 1) = some (t.raise (e.carried x.answer))
  /-- What becomes of an exception is reported right after its raise only. -/
  only : ∀ t o j, m.activity? s n = some (.reporting t o j) → o.event.resolves = true →
    ∃ xs x, m.exchanges s n = xs ++ [x] ∧ x.event = .raise
  balanced : ∀ r, m.activity? s n = some (.finished r) →
    ((m.exchanges s n).map Exchange.event).count .raise =
      ((m.exchanges s n).map Exchange.event).count .exceptionHandled +
        ((m.exchanges s n).map Exchange.event).count .frameUnwind

section Call

variable {m : Machine σ} {s : State σ} {limit : ℕ} {callable : Value} {args : List Value}
  {k : Except Exception Value → Script σ} {n : ℕ}

/-- Where an exchange has entered a handler, the frame goes on there or meets the fault. -/
theorem Completes.of_handled {i : ℕ} {x : Exchange} (hx : m.Completes s i x)
    (he : x.event = .exceptionHandled) :
    ∃ (e : Exception) (t : Thread) (o : Occurrence) (j : Juncture),
      x.occurrence.payload.detail = e.told ∧
      m.activity? s (i + 1) = some (.reporting t o j) ∧ x.thread.Alike t ∧
      t.frame.stack = .exception e :: x.thread.frame.stack ∧
      (x.answer = .ok () → x.thread.frame.current?.isSome = true →
        o.event = .line ∨ o.event = .instruction) ∧
      ∀ fault, x.answer = .error fault → o.event = .raise ∧ o.payload.detail = fault.told := by
  obtain ⟨e, -, htold, hgoes, hfaults⟩ := Exchange.next_of_handled hx.reports he
  have hpush : x.thread.Alike (x.thread.withFrame (x.thread.frame.push (.exception e))) :=
    Thread.alike_withFrame (x.thread.frame.alike_push _)
  cases ha : x.answer with
  | error fault =>
      refine ⟨e, _, _, _, htold, hx.next.trans (congrArg some (hfaults fault ha)), hpush, rfl,
        nofun, ?_⟩
      rintro _ ⟨⟩
      exact ⟨rfl, rfl⟩
  | ok u =>
      obtain ⟨t, o, j, hfetch, halike, hstack, hevent⟩ :=
        Thread.exists_fetch (x.thread.withFrame (x.thread.frame.push (.exception e)))
      refine ⟨e, t, o, j, htold, ?_, hpush.trans halike, hstack, fun _ => hevent, nofun⟩
      rw [hx.next, hgoes ha, hfetch]

/-- What has left a frame is raised in the frame below, or is the result of the call. -/
theorem Completes.of_unwind {i : ℕ} {x : Exchange} (hx : m.Completes s i x)
    (he : x.event = .frameUnwind) :
    ∃ e : Exception, x.occurrence.payload.detail = e.told ∧
      (x.thread.below = [] →
        m.activity? s (i + 1) = some (.finished (.error (e.carried x.answer)))) ∧
      ∀ caller rest, x.thread.below = caller :: rest →
        ∃ t : Thread, t.top = caller ∧ t.below = rest ∧
          m.activity? s (i + 1) = some (t.raise (e.carried x.answer)) := by
  obtain ⟨e, -, htold, hnext⟩ := Exchange.next_of_unwind hx.reports he
  refine ⟨e, htold, fun hbelow => ?_, fun caller rest hbelow => ?_⟩
  · rw [hx.next, hnext, Thread.leaveRaising_of_nil hbelow]
  · obtain ⟨t, -, htop, hrest, hleave⟩ := Thread.leaveRaising_of_below hbelow (e.carried x.answer)
    exact ⟨t, htop, hrest, by rw [hx.next, hnext, hleave]⟩

/-- **Every raise is resolved once, in its frame**, whatever the callbacks do. -/
theorem every_raise_resolved (hcall : s.focus = .script (.call limit callable args k))
    (hn : m.Underway s n) : m.Resolution s n := by
  refine ⟨fun i hi x hx he => ?_, fun i hi x hx => (completes hcall hn hi hx).of_handled,
    fun i hi x hx => (completes hcall hn hi hx).of_unwind, fun t o j ha hres => ?_,
    fun r hr => ?_⟩
  · have hc := completes hcall hn hi hx
    obtain ⟨e, -, htold, hnext⟩ := Exchange.next_of_raise hc.reports he
    refine ⟨e, htold, hc.reports.unit, hc.reports.offset, fun handler hh => ?_, fun hh => ?_⟩
    · obtain ⟨above, bottom, hstack, hlength, hroute⟩ :=
        Thread.exists_route_eq hh (e.carried x.answer)
      exact ⟨above, bottom, hstack, hlength, by rw [hc.next, hnext, hroute]⟩
    · rw [hc.next, hnext, Thread.route_eq_of_none hh]
  · have hcourse := course_of_activity? hcall hn ha
    have hsound := (hcourse.sound (Activity.sound_call ..)).2
    rcases hcourse.eq_or_eq_next with ⟨-, hfirst⟩ | ⟨xs, x, hxs, hlast⟩
    · have hno := Activity.resolves_call s.world.heap limit callable args
      rw [← hfirst] at hno
      exact absurd (show (Activity.reporting t o j).resolves = true from hres)
        (by rw [hno]; exact Bool.false_ne_true)
    · have hreports := hsound x (by simp [hxs])
      refine ⟨xs, x, hxs, (Exchange.resolves_next_iff hreports).1 ?_⟩
      rw [← hlast]
      exact hres
  · have hcourse := course_of_activity? hcall hn hr
    have hcount := hcourse.countP_resolves (Activity.sound_call ..)
    rw [Activity.resolves_call, Exchange.countP_raises, Exchange.countP_resolves] at hcount
    exact hcount

/-- The fault that is raised at the yield leaves the frame of the generator and is handled in the
loop. -/
theorem looping_resolved :
    ((objecting.exchanges (objecting.states looping 2) 17).map Exchange.event).count .raise = 2 ∧
      ((objecting.exchanges (objecting.states looping 2) 17).map Exchange.event).count
        .exceptionHandled = 1 ∧
      ((objecting.exchanges (objecting.states looping 2) 17).map Exchange.event).count
        .frameUnwind = 1 := by
  obtain ⟨hcall, hn, hfinished⟩ := looping_underway
  have hbalanced := (every_raise_resolved hcall hn).balanced _ hfinished
  have hhandled : ((objecting.exchanges (objecting.states looping 2) 17).map
      Exchange.event).count .exceptionHandled = 1 := by decide +kernel
  have hunwound : ((objecting.exchanges (objecting.states looping 2) 17).map
      Exchange.event).count .frameUnwind = 1 := by decide +kernel
  exact ⟨by rw [hbalanced, hhandled, hunwound], hhandled, hunwound⟩

end Call

end Machine

end Tracepoint
