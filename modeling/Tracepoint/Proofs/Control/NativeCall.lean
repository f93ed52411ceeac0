/-
**Calls, and callees that are no functions.**

A call instruction takes its operands from the stack and reports what it is about to call.  If a
callback objects, nothing is called.  Otherwise a function gets a frame of its own, whose entry and
leaving are reported there, and anything else answers for itself at once: the very next report is
that a native has returned or that the call has failed, with what the call was reported with.  These
two reports are made on no other occasion.

The argument is by the junctures of a thread.  Only two of them lead to a report about a call: that
of a call instruction, and that of a call that was reported.

Main definitions:

* `Tracepoint.Frame.Calls` — a frame is about to make a call;
* `Tracepoint.Activity.tellsOfCall` — a report is about a call;
* `Tracepoint.Machine.CallsAnswered` — the calls of a call are reported and answered for.

Main results:

* `Tracepoint.Thread.executeCurrent_of_calls` — a call instruction on its operands;
* `Tracepoint.Thread.cases_of_tellsOfCall` — **the junctures that lead to a report about a call**;
* `Tracepoint.Machine.native_calls_paired` — **every call is reported once, and what is called and
  is no function answers for itself once**.
-/

import Tracepoint.Proofs.Control.Fault

set_option relaxedAutoImplicit false
set_option autoImplicit false

namespace Tracepoint

variable {σ : Type}

/-! ### Reports about calls -/

/-- Whether a report is about a call: that it is made, or how a native callee has come out of it. -/
def Activity.tellsOfCall : Activity → Bool
  | .reporting _ o _ => o.event.shape == .call
  | .finished _ => false

/-- **A frame is about to make a call**: its instruction is a call, and the operands are on its
stack, the last argument on top and what is called below the arguments. -/
structure Frame.Calls (f : Frame) (callable : Value) (args rest : List Value) : Prop where
  current : f.current? = some (.call args.length)
  stack : f.stack = args.reverse ++ callable :: rest

namespace Thread

section Operands

variable {t : Thread} {callable : Value} {args rest : List Value}

/-- **A call instruction on its operands** reports what it is about to call. -/
theorem executeCurrent_of_calls (hc : t.frame.Calls callable args rest) (h : Heap) :
    t.executeCurrent h = (h, (t.withFrame { t.frame with stack := rest }).report .call
      (.call callable args.head?) (.called callable args)) := by
  have hi : t.frame.code.instruction? t.frame.pc = some (.call args.length) := hc.current
  simp only [executeCurrent, hi, execute, takeArgs_of_stack hc.stack]

end Operands

/-! ### The junctures that lead to them -/

section Junctures

variable (h : Heap) (t : Thread)

theorem tellsOfCall_fetch : t.fetch.tellsOfCall = false := by
  have hfetches := t.fetches_fetch
  generalize t.fetch = a at hfetches
  cases hfetches <;> rfl

theorem tellsOfCall_route (e : Exception) : (t.route e).tellsOfCall = false := by
  have hroutes := t.routes_route e
  generalize t.route e = a at hroutes
  cases hroutes <;> rfl

theorem tellsOfCall_enter : t.enter.tellsOfCall = false := by
  show (Event.shape (if t.frame.started then .frameResume else .frameStart) == .call) = false
  split <;> rfl

theorem tellsOfCall_leaveRaising (e : Exception) :
    (t.leaveRaising e).tellsOfCall = false := by
  unfold leaveRaising
  split <;> rfl

theorem tellsOfCall_next (f : Frame) : (t.next h f).2.tellsOfCall = false :=
  tellsOfCall_fetch _

theorem tellsOfCall_produce (item : Value) : (t.produce h item).2.tellsOfCall = false := rfl

theorem tellsOfCall_exhaust (exit : ℕ) : (t.exhaust h exit).2.tellsOfCall = false := rfl

theorem tellsOfCall_advanceIterator (exit : ℕ) (iterator : Value) :
    (t.advanceIterator h exit iterator).2.tellsOfCall = false := by
  unfold advanceIterator
  split
  · split
    · exact tellsOfCall_produce ..
    · exact tellsOfCall_exhaust ..
  · split
    · rfl
    · exact tellsOfCall_exhaust ..
    · split
      · exact tellsOfCall_enter _
      · rfl
  · rfl

theorem tellsOfCall_leaveByReturn (v : Value) : (t.leaveByReturn h v).2.tellsOfCall = false := by
  unfold leaveByReturn
  split
  · rfl
  · unfold leaveReturning
    split
    · rfl
    · exact tellsOfCall_next ..

theorem tellsOfCall_leaveByYield (v : Value) : (t.leaveByYield h v).2.tellsOfCall = false := by
  unfold leaveByYield
  split
  · exact tellsOfCall_produce ..
  · exact tellsOfCall_leaveRaising ..

theorem tellsOfCall_leaveLoop : (t.leaveLoop h).2.tellsOfCall = false := by
  unfold leaveLoop
  split
  · exact tellsOfCall_exhaust ..
  · rfl

theorem tellsOfCall_suffer (fault : Exception) (j : Juncture) :
    (t.suffer h fault j).2.tellsOfCall = false := by
  cases j <;> first | rfl | exact tellsOfCall_route .. | exact tellsOfCall_leaveRaising ..

/-- A function that is called answers in its own frame. -/
theorem tellsOfCall_makeCall {callable : Value} (hf : callable.isFunction = true)
    (args : List Value) : (t.makeCall h callable args).2.tellsOfCall = false := by
  cases callable with
  | function a =>
      simp only [makeCall]
      split
      · rfl
      · split
        · rfl
        · split
          · exact tellsOfCall_next ..
          · split
            · exact tellsOfCall_enter _
            · rfl
  | _ => cases hf

variable {h t}

/-- Of the instructions only a call on its operands reports about a call. -/
theorem calls_of_tellsOfCall {i : Instruction} (hi : t.frame.current? = some i)
    (htells : (t.execute h i).2.tellsOfCall = true) :
    ∃ callable args rest, t.frame.Calls callable args rest := by
  have none : ∀ {a : Activity}, a.tellsOfCall = false → a.tellsOfCall = true →
      ∃ callable args rest, t.frame.Calls callable args rest := by
    intro a hno hyes
    rw [hno] at hyes
    cases hyes
  cases i with
  | call n =>
      simp only [execute] at htells
      split at htells
      · exact none rfl htells
      · rename_i args f hargs
        obtain ⟨hlength, hstack, -⟩ := stack_of_takeArgs hargs
        split at htells
        · exact none rfl htells
        · rename_i callable rest hs
          exact ⟨callable, args, rest, by rw [hi, hlength], by rw [hstack, hs]⟩
  | forIter l =>
      refine none ?_ htells
      simp only [execute]
      split
      · rfl
      · split
        · rfl
        · exact tellsOfCall_advanceIterator ..
  | popJumpIfFalse l =>
      refine none ?_ htells
      simp only [execute]
      split
      · rfl
      · split
        · rfl
        · split <;> rfl
  | jump l | ret | yield =>
      refine none ?_ htells
      simp only [execute]
      split <;> rfl
  | _ =>
      refine none ?_ htells
      simp only [execute]
      repeat' split
      all_goals first | rfl | exact tellsOfCall_next ..

/-- **The junctures that lead to a report about a call**: that of a call instruction with its
operands, and that of a call of what is no function, if nobody has objected. -/
theorem cases_of_tellsOfCall {j : Juncture} {r : Except Exception Unit}
    (htells : (t.resume h j r).2.tellsOfCall = true) :
    r = .ok () ∧
      ((j = .instruction ∧ ∃ callable args rest, t.frame.Calls callable args rest) ∨
        ∃ callable args, j = .called callable args ∧ callable.isFunction = false) := by
  have none : ∀ {P : Prop} {a : Activity}, a.tellsOfCall = false → a.tellsOfCall = true → P := by
    intro P a hno hyes
    rw [hno] at hyes
    cases hyes
  cases r with
  | error fault => exact none (tellsOfCall_suffer h t fault j) htells
  | ok u =>
      refine ⟨rfl, ?_⟩
      cases j with
      | instruction =>
          refine Or.inl ⟨rfl, ?_⟩
          have htells' : (t.executeCurrent h).2.tellsOfCall = true := htells
          unfold executeCurrent at htells'
          split at htells'
          · rename_i i hi
            exact calls_of_tellsOfCall hi htells'
          · exact none rfl htells'
      | called callable args =>
          refine Or.inr ⟨callable, args, rfl, ?_⟩
          cases hf : callable.isFunction with
          | false => rfl
          | true => exact none (tellsOfCall_makeCall h t hf args) htells
      | line => exact none rfl htells
      | nativeRaised e => exact none rfl htells
      | entered | transferring _ _ | handled _ => exact none (tellsOfCall_fetch _) htells
      | nativeReturned v => exact none (tellsOfCall_next ..) htells
      | returning v => exact none (tellsOfCall_leaveByReturn ..) htells
      | yielding v => exact none (tellsOfCall_leaveByYield ..) htells
      | stopped => exact none (tellsOfCall_leaveLoop ..) htells
      | raised e => exact none (tellsOfCall_route ..) htells
      | unwound e => exact none (tellsOfCall_leaveRaising ..) htells

end Junctures

end Thread

/-! ### What calls of natives lead to -/

section Tells

variable {f : Frame} {event : Event} {d : Detail} {j : Juncture}

theorem Frame.Tells.of_call (h : f.Tells .call d j) :
    ∃ callable args, j = .called callable args ∧ d = .call callable args.head? := by
  cases h with
  | call _ callable args => exact ⟨callable, args, rfl, rfl⟩

theorem Frame.Tells.of_nativeReturn (h : f.Tells .nativeReturn d j) :
    ∃ v, j = .nativeReturned v := by
  cases h with
  | nativeReturn _ _ _ v => exact ⟨v, rfl⟩

theorem Frame.Tells.of_nativeRaise (h : f.Tells .nativeRaise d j) :
    ∃ e, j = .nativeRaised e := by
  cases h with
  | @nativeRaise _ _ _ _ e => exact ⟨e, rfl⟩

theorem Frame.Tells.event_eq_call {callable : Value} {args : List Value}
    (h : f.Tells event d (.called callable args)) : event = .call := by
  cases h
  rfl

end Tells

/-- A call of a native function runs it, and reports how it has come out. -/
theorem Thread.makeCall_native (h : Heap) (t : Thread) (f : Native) (args : List Value) :
    t.makeCall h (.native f) args = ((h.runNative f args).1,
      match (h.runNative f args).2 with
      | .ok v => t.report .nativeReturn (.call (.native f) args.head?) (.nativeReturned v)
      | .error e => t.report .nativeRaise (.call (.native f) args.head?) (.nativeRaised e)) := by
  simp only [makeCall, callNative]
  split <;> simp_all

/-- A call of what cannot be called fails. -/
theorem Thread.makeCall_uncallable {callable : Value} (hf : callable.isFunction = false)
    (hn : ∀ f, callable ≠ .native f) (h : Heap) (t : Thread) (args : List Value) :
    t.makeCall h callable args = (h, t.report .nativeRaise (.call callable args.head?)
      (.nativeRaised (.notCallable callable.typeName))) := by
  cases callable with
  | function a => cases hf
  | native f => exact absurd rfl (hn f)
  | _ => rfl

namespace Exchange

/-- What is reported with the same detail in the same place is reported with the same payload. -/
theorem report_eq {x : Exchange} (hr : x.thread.Reports x.occurrence x.juncture) {d : Detail}
    (hd : x.occurrence.payload.detail = d) (e : Event) (j : Juncture) :
    x.thread.report e d j = .reporting x.thread ⟨e, x.occurrence.payload⟩ j := by
  obtain ⟨t, ⟨event, unit, offset, detail⟩, j', heap, answer⟩ := x
  obtain rfl : detail = d := hd
  obtain rfl : unit = .loaded t.frame.address t.frame.code := hr.unit
  obtain rfl : offset = t.frame.offset := hr.offset
  rfl

/-- **A report about a call** comes from a call instruction that is about to be made, if it is the
report of the call, and otherwise from the report of the call of what is no function. -/
theorem of_tellsOfCall {x : Exchange} {t : Thread} {o : Occurrence} {j : Juncture}
    (hr : x.thread.Reports x.occurrence x.juncture) (hnext : x.next = .reporting t o j)
    (ho : o.event.shape = .call) :
    x.answer = .ok () ∧
      ((o.event = .call ∧ x.event = .instruction ∧
          ∃ callable args rest, x.thread.frame.Calls callable args rest) ∨
        (o.event.isDerived = true ∧ x.event = .call ∧
          ∃ callable args, x.juncture = .called callable args ∧ callable.isFunction = false)) := by
  have htells : x.next.tellsOfCall = true := by
    rw [hnext]
    exact beq_iff_eq.2 ho
  obtain ⟨hok, hj⟩ := Thread.cases_of_tellsOfCall htells
  refine ⟨hok, ?_⟩
  rcases hj with ⟨hj, callable, args, rest, hc⟩ | ⟨callable, args, hj, hf⟩
  · refine Or.inl ⟨?_, (tells_juncture hr hj).at_instruction.1, callable, args, rest, hc⟩
    have hcall := Thread.executeCurrent_of_calls hc x.heap
    have hproceed : x.next = (x.thread.executeCurrent x.heap).2 := by
      rw [next, hj, hok]
      rfl
    rw [hproceed, hcall] at hnext
    rw [← (Activity.reporting.inj hnext).2.1]
  · refine Or.inr ⟨?_, ?_, callable, args, hj, hf⟩
    · have hproceed : x.next = (x.thread.makeCall x.heap callable args).2 := by
        rw [next, hj, hok]
        rfl
      have hderived : ∃ e d j', x.next = x.thread.report e d j' ∧ e.isDerived = true := by
        rw [hproceed]
        cases callable with
        | function a => cases hf
        | native f =>
            rw [Thread.makeCall_native]
            dsimp only
            split
            · exact ⟨_, _, _, rfl, rfl⟩
            · exact ⟨_, _, _, rfl, rfl⟩
        | _ => exact ⟨_, _, _, rfl, rfl⟩
      obtain ⟨e, d, j', hreport, he⟩ := hderived
      rw [hreport] at hnext
      rw [← (Activity.reporting.inj hnext).2.1]
      exact he
    · exact (tells_juncture hr hj).event_eq_call

end Exchange

/-! ### Calls -/

namespace Machine

/-- **The calls that a call makes are reported and answered for** in its first `n` steps. -/
structure CallsAnswered (m : Machine σ) (s : State σ) (n : ℕ) : Prop where
  /-- A call instruction that nobody objects to and that finds its operands is reported as a call,
  with what is called and its first argument.  Nothing else has happened before. -/
  called : ∀ i < n, ∀ x, m.exchangeAt? s i = some x →
    x.event = .instruction → x.answer = .ok () →
    ∀ callable args rest, x.thread.frame.Calls callable args rest →
      m.activity? s (i + 1) =
        some ((x.thread.withFrame { x.thread.frame with stack := rest }).report
          .call (.call callable args.head?) (.called callable args)) ∧
      (m.states s (i + 1)).world.heap = (m.states s i).world.heap
  /-- A call is reported on no other occasion. -/
  once : ∀ t o j, m.activity? s n = some (.reporting t o j) → o.event = .call →
    ∃ xs x, m.exchanges s n = xs ++ [x] ∧ x.event = .instruction ∧ x.answer = .ok () ∧
      ∃ callable args rest, x.thread.frame.Calls callable args rest
  /-- If a callback objects to the call, nothing is called: the fault is raised at the call. -/
  refused : ∀ i < n, ∀ x, m.exchangeAt? s i = some x → x.event = .call →
    ∀ fault, x.answer = .error fault →
      m.activity? s (i + 1) = some (x.thread.raise fault) ∧
      (m.states s (i + 1)).world.heap = (m.states s i).world.heap
  /-- Otherwise what is called and is no function answers for itself.  A native function runs, and
  the next report of all is that it has returned or that it has raised; what is no native either has
  raised.  It is reported with what the call was reported with. -/
  answered : ∀ i < n, ∀ x, m.exchangeAt? s i = some x → x.event = .call → x.answer = .ok () →
    ∃ callable args, x.juncture = .called callable args ∧
      x.occurrence.payload.detail = .call callable args.head? ∧
      (∀ f, callable = .native f →
        (m.states s (i + 1)).world.heap =
            ((m.states s i).world.heap.runNative f args).1 ∧
          (∀ v, ((m.states s i).world.heap.runNative f args).2 = .ok v →
            (m.states s (i + 1)).occurrence? = some ⟨.nativeReturn, x.occurrence.payload⟩ ∧
              m.activity? s (i + 1) = some (.reporting x.thread
                ⟨.nativeReturn, x.occurrence.payload⟩ (.nativeReturned v))) ∧
          ∀ e, ((m.states s i).world.heap.runNative f args).2 = .error e →
            (m.states s (i + 1)).occurrence? = some ⟨.nativeRaise, x.occurrence.payload⟩ ∧
              m.activity? s (i + 1) = some (.reporting x.thread
                ⟨.nativeRaise, x.occurrence.payload⟩ (.nativeRaised e))) ∧
      (callable.isFunction = false → (∀ f, callable ≠ .native f) →
        (m.states s (i + 1)).world.heap = (m.states s i).world.heap ∧
          (m.states s (i + 1)).occurrence? = some ⟨.nativeRaise, x.occurrence.payload⟩ ∧
          m.activity? s (i + 1) = some (.reporting x.thread
            ⟨.nativeRaise, x.occurrence.payload⟩
            (.nativeRaised (.notCallable callable.typeName))))
  /-- The value of a native function is pushed, unless a callback objects to its return, whose fault
  is raised then. -/
  returned : ∀ i < n, ∀ x, m.exchangeAt? s i = some x → x.event = .nativeReturn →
    ∃ v, x.juncture = .nativeReturned v ∧
      (m.states s (i + 1)).world.heap = (m.states s i).world.heap ∧
      (x.answer = .ok () → m.activity? s (i + 1) =
        some (x.thread.withFrame (x.thread.frame.push v).advance).fetch) ∧
      ∀ fault, x.answer = .error fault → m.activity? s (i + 1) = some (x.thread.raise fault)
  /-- The exception of a failed call is raised, or the fault of a callback that objects to it. -/
  raised : ∀ i < n, ∀ x, m.exchangeAt? s i = some x → x.event = .nativeRaise →
    ∃ e : Exception, x.juncture = .nativeRaised e ∧
      (m.states s (i + 1)).world.heap = (m.states s i).world.heap ∧
      m.activity? s (i + 1) = some (x.thread.raise (e.carried x.answer))
  /-- A native has returned or raised on no other occasion; not when the call was objected to, and
  not for a function. -/
  only : ∀ t o j, m.activity? s n = some (.reporting t o j) → o.event.isDerived = true →
    ∃ xs x, m.exchanges s n = xs ++ [x] ∧ x.event = .call ∧ x.answer = .ok () ∧
      ∃ callable args, x.juncture = .called callable args ∧ callable.isFunction = false

section Call

variable {m : Machine σ} {s : State σ} {limit : ℕ} {callable : Value} {args : List Value}
  {k : Except Exception Value → Script σ} {n : ℕ}

/-- A call does not begin with a report about a call. -/
theorem tellsOfCall_call (h : Heap) (limit : ℕ) (callable : Value) (args : List Value) :
    (Activity.call h limit callable args).2.tellsOfCall = false := by
  rcases Activity.call_cases h limit callable args with
    ⟨r, hr, -⟩ | ⟨_, _, f, -, -, -, -, -, henter⟩
  · rw [hr]
    rfl
  · rw [henter]
    exact Thread.tellsOfCall_enter _

/-- **What a report about a call comes after.** -/
theorem exists_of_tellsOfCall (hcall : s.focus = .script (.call limit callable args k))
    (hn : m.Underway s n) {t : Thread} {o : Occurrence} {j : Juncture}
    (ha : m.activity? s n = some (.reporting t o j)) (ho : o.event.shape = .call) :
    ∃ xs x, m.exchanges s n = xs ++ [x] ∧ x.answer = .ok () ∧
      ((o.event = .call ∧ x.event = .instruction ∧
          ∃ callable args rest, x.thread.frame.Calls callable args rest) ∨
        (o.event.isDerived = true ∧ x.event = .call ∧
          ∃ callable args, x.juncture = .called callable args ∧
            callable.isFunction = false)) := by
  have hcourse := course_of_activity? hcall hn ha
  have hsound := (hcourse.sound (Activity.sound_call ..)).2
  rcases hcourse.eq_or_eq_next with ⟨-, hfirst⟩ | ⟨xs, x, hxs, hlast⟩
  · have hno := tellsOfCall_call s.world.heap limit callable args
    rw [← hfirst] at hno
    exact absurd ho (bne_iff_ne.1 (by simpa [Activity.tellsOfCall] using hno))
  · obtain ⟨hok, hfrom⟩ := Exchange.of_tellsOfCall (hsound x (by simp [hxs])) hlast.symm ho
    exact ⟨xs, x, hxs, hok, hfrom⟩

/-- What a call reports next is the next occurrence of the whole run. -/
theorem occurrence?_of_next {i : ℕ} {x : Exchange} (hi : m.exchangeAt? s i = some x)
    {t : Thread} {o : Occurrence} {j : Juncture} (hnext : x.next = .reporting t o j) :
    (m.states s (i + 1)).occurrence? = some o := by
  have hx : m.exchange? (m.states s i) = some x := by
    rw [exchangeAt?] at hi
    split at hi
    · exact hi
    · cases hi
  obtain ⟨hheap, levels, k, hadvance⟩ := advance_of_exchange? hx
  have hfollow : (m.states s (i + 1)).focus = .thread x.next k := by
    rw [states_succ, hadvance, Exchange.next, hheap]
    rfl
  rw [State.occurrence?, hfollow, hnext]

/-- A report that comes next comes next in the whole run. -/
theorem Completes.reports_next {i : ℕ} {x : Exchange} (hc : m.Completes s i x)
    (hi : m.exchangeAt? s i = some x) {h : Heap} {t : Thread} {o : Occurrence} {j : Juncture}
    (hresume : x.thread.resume x.heap x.juncture x.answer = (h, .reporting t o j)) :
    (m.states s (i + 1)).world.heap = h ∧ (m.states s (i + 1)).occurrence? = some o ∧
      m.activity? s (i + 1) = some (.reporting t o j) := by
  have hnext : x.next = .reporting t o j := congrArg Prod.snd hresume
  refine ⟨?_, occurrence?_of_next hi hnext, ?_⟩
  · rw [hc.heap_next, hresume]
  · rw [hc.next, hnext]

/-- What is called and is no function answers for itself. -/
theorem Completes.of_call {i : ℕ} {x : Exchange} (hc : m.Completes s i x)
    (hi : m.exchangeAt? s i = some x) (he : x.event = .call) (hok : x.answer = .ok ()) :
    ∃ callable args, x.juncture = .called callable args ∧
      x.occurrence.payload.detail = .call callable args.head? ∧
      (∀ f, callable = .native f →
        (m.states s (i + 1)).world.heap =
            ((m.states s i).world.heap.runNative f args).1 ∧
          (∀ v, ((m.states s i).world.heap.runNative f args).2 = .ok v →
            (m.states s (i + 1)).occurrence? = some ⟨.nativeReturn, x.occurrence.payload⟩ ∧
              m.activity? s (i + 1) = some (.reporting x.thread
                ⟨.nativeReturn, x.occurrence.payload⟩ (.nativeReturned v))) ∧
          ∀ e, ((m.states s i).world.heap.runNative f args).2 = .error e →
            (m.states s (i + 1)).occurrence? = some ⟨.nativeRaise, x.occurrence.payload⟩ ∧
              m.activity? s (i + 1) = some (.reporting x.thread
                ⟨.nativeRaise, x.occurrence.payload⟩ (.nativeRaised e))) ∧
      (callable.isFunction = false → (∀ f, callable ≠ .native f) →
        (m.states s (i + 1)).world.heap = (m.states s i).world.heap ∧
          (m.states s (i + 1)).occurrence? = some ⟨.nativeRaise, x.occurrence.payload⟩ ∧
          m.activity? s (i + 1) = some (.reporting x.thread
            ⟨.nativeRaise, x.occurrence.payload⟩
            (.nativeRaised (.notCallable callable.typeName)))) := by
  obtain ⟨callable, args, hj, hd⟩ := (Exchange.tells_event hc.reports he).of_call
  have hresume : x.thread.resume x.heap x.juncture x.answer =
      x.thread.makeCall x.heap callable args := by
    rw [hj, hok]
    rfl
  have told := Exchange.report_eq hc.reports hd
  refine ⟨callable, args, hj, hd, ?_, fun hf hn => ?_⟩
  · rintro f rfl
    rw [Thread.makeCall_native] at hresume
    rw [← hc.heap]
    refine ⟨by rw [hc.heap_next, hresume], fun v hv => ?_, fun e hv => ?_⟩
    · simp only [hv, told] at hresume
      exact (hc.reports_next hi hresume).2
    · simp only [hv, told] at hresume
      exact (hc.reports_next hi hresume).2
  · rw [Thread.makeCall_uncallable hf hn, told] at hresume
    rw [← hc.heap]
    exact hc.reports_next hi hresume

/-- **Every call is reported once, and what is called and is no function answers for itself once**,
whatever the callbacks do. -/
theorem native_calls_paired (hcall : s.focus = .script (.call limit callable args k))
    (hn : m.Underway s n) : m.CallsAnswered s n where
  called i hi x hx he hok callable args rest hcalls := by
    have hc := completes hcall hn hi hx
    have hj : x.juncture = .instruction := (Exchange.tells_event hc.reports he).of_instruction
    have hresume : x.thread.resume x.heap x.juncture x.answer =
        x.thread.executeCurrent x.heap := by
      rw [hj, hok]
      rfl
    rw [Thread.executeCurrent_of_calls hcalls] at hresume
    refine ⟨?_, ?_⟩
    · rw [hc.next, Exchange.next, hresume]
    · rw [hc.heap_next, hresume, hc.heap]
  once t o j ha ho := by
    obtain ⟨xs, x, hxs, hok, ⟨-, he, hcalls⟩ | ⟨hderived, -⟩⟩ :=
      exists_of_tellsOfCall hcall hn ha (by rw [ho]; rfl)
    · exact ⟨xs, x, hxs, he, hok, hcalls⟩
    · rw [ho] at hderived
      cases hderived
  refused i hi x hx he fault ha := by
    have hc := completes hcall hn hi hx
    obtain ⟨t, -, hsame, hresume⟩ := Exchange.next_of_fault hc.reports ha (by simp [he])
      (by simp [he])
    obtain rfl : t = x.thread := hsame (by simp [he])
    refine ⟨?_, ?_⟩
    · rw [hc.next, Exchange.next, hresume]
    · rw [hc.heap_next, hresume, hc.heap]
  answered i hi x hx he hok := (completes hcall hn hi hx).of_call hx he hok
  returned i hi x hx he := by
    have hc := completes hcall hn hi hx
    obtain ⟨v, hj⟩ := (Exchange.tells_event hc.reports he).of_nativeReturn
    refine ⟨v, hj, ?_, fun ha => ?_, fun fault ha => ?_⟩
    · rw [hc.heap_next, hj, ← hc.heap]
      cases x.answer <;> rfl
    · rw [hc.next, Exchange.next, hj, ha]
      rfl
    · rw [hc.next, Exchange.next, hj, ha]
      rfl
  raised i hi x hx he := by
    have hc := completes hcall hn hi hx
    obtain ⟨e, hj⟩ := (Exchange.tells_event hc.reports he).of_nativeRaise
    refine ⟨e, hj, ?_, ?_⟩
    · rw [hc.heap_next, hj, ← hc.heap]
      cases x.answer <;> rfl
    · rw [hc.next, Exchange.next, hj]
      cases x.answer <;> rfl
  only t o j ha ho := by
    have hshape : o.event.shape = .call := by
      cases he : o.event <;> rw [he] at ho <;> first | rfl | cases ho
    obtain ⟨xs, x, hxs, hok, ⟨hevent, -⟩ | ⟨-, he, hcalled⟩⟩ :=
      exists_of_tellsOfCall hcall hn ha hshape
    · rw [hevent] at ho
      cases ho
    · exact ⟨xs, x, hxs, he, hok, hcalled⟩

end Call

/-- A function that asks for the length of a text. -/
def measure : Code where
  name := "measure"
  firstLine := 1
  params := 0
  locals := 0
  isGenerator := false
  rows := #[⟨.loadConst 0, none, false⟩, ⟨.loadConst 1, none, false⟩, ⟨.call 1, none, false⟩,
    ⟨.ret, none, false⟩]
  labels := #[]
  handlers := []
  consts := #[.native .len, .str "ab"]

/-- The function is called while a tool listens for natives that return. -/
def measuring : State Unit :=
  .initial
    { registry := .operated [.claim .debugger "watcher",
        .register .debugger .nativeReturn (some ⟨0, .call⟩),
        .setGlobal .debugger (.single .call)]
      heap := { Heap.empty with codes := #[measure] }
      memory := () }
    (.call 9 (.function 0) [] fun _ => .done)

/-- The callback objects to the return of the native, whose value is not pushed: the fault is raised
at the call. -/
theorem measuring_answered :
    ∃ x, objecting.exchangeAt? measuring 9 = some x ∧ x.event = .nativeReturn ∧
      x.juncture = .nativeReturned (.int 2) ∧ x.thread.frame.stack = [] ∧
      objecting.activity? measuring 10 = some (x.thread.raise (.runtimeError "no")) := by
  have hn : objecting.Underway measuring 12 := underway_of_forall (by decide +kernel)
  obtain ⟨x, hx, he, hfault, hstack, hlength⟩ : ∃ x, objecting.exchangeAt? measuring 9 = some x ∧
      x.event = .nativeReturn ∧ x.answer = .error (.runtimeError "no") ∧
      x.thread.frame.stack = [] ∧ x.juncture = .nativeReturned (.int 2) :=
    ⟨_, rfl, rfl, rfl, rfl, rfl⟩
  obtain ⟨_, -, -, -, hraise⟩ :=
    (native_calls_paired (n := 12) rfl hn).returned 9 (by omega) x hx he
  exact ⟨x, hx, he, hlength, hstack, hraise _ hfault⟩

end Machine

end Tracepoint
