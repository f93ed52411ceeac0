/-
**No fault of a callback is lost.**

A callback that answers a report with a fault stops the thread where it is: the report is the last
thing that has happened, the heap is as it was, and what comes next is an exception, which is the
fault itself.  Exceptions leave a call or end in a handler; only another fault takes the place of
one.  So a call that returns a value has handled each fault, or another fault that came after it.

Main definitions:

* `Tracepoint.Activity.Flying`, `Tracepoint.Exchange.InFlight` — an exception is on its way;
* `Tracepoint.Machine.FaultsKept` — the faults of a call are kept.

Main results:

* `Tracepoint.Exchange.next_of_fault` — **a fault stops the thread**;
* `Tracepoint.Activity.Course.exists_landing` — what is on its way is handled or replaced, if the
  call returns a value;
* `Tracepoint.Machine.no_fault_lost` — **no fault is lost, delayed or altered**.
-/

import Tracepoint.Proofs.Control.Resolution

set_option relaxedAutoImplicit false
set_option autoImplicit false

namespace Tracepoint

variable {σ : Type}

/-! ### What a fault leads to -/

namespace Exchange

/-- **A fault stops the thread**: it is raised where the thread is, and nothing else has happened.
Where a handler was just entered, the exception that it is entered with is on the stack already. -/
theorem next_of_fault {x : Exchange} (hr : x.thread.Reports x.occurrence x.juncture)
    {f : Exception} (ha : x.answer = .error f) (hraise : x.event ≠ .raise)
    (hunwind : x.event ≠ .frameUnwind) :
    ∃ t, x.thread.Alike t ∧ (x.event ≠ .exceptionHandled → t = x.thread) ∧
      x.thread.resume x.heap x.juncture x.answer = (x.heap, t.raise f) := by
  obtain ⟨t, ⟨event, unit, offset, detail⟩, j, heap, answer⟩ := x
  obtain rfl : answer = .error f := ha
  have ht : t.frame.Tells event detail j := hr.tells
  cases ht with
  | raise e => exact absurd rfl hraise
  | unwind e => exact absurd rfl hunwind
  | handle e =>
      exact ⟨_, Thread.alike_withFrame (t.frame.alike_push _), fun hno => absurd rfl hno, rfl⟩
  | _ => exact ⟨t, Thread.alike_withFrame (.refl t.frame), fun _ => rfl, rfl⟩

end Exchange

namespace Thread

/-- What becomes of an exception is reported for the frame in which it was raised. -/
theorem exists_route (t : Thread) (e : Exception) :
    ∃ t' o j, t.route e = .reporting t' o j ∧ t'.below = t.below ∧
      t'.top.generator = t.top.generator ∧ t'.frame.address = t.frame.address ∧
      t'.frame.code = t.frame.code ∧ o.payload.detail = e.told ∧
      ((o.event = .exceptionHandled ∧ j = .handled e) ∨
        (o.event = .frameUnwind ∧ j = .unwound e)) := by
  have hroutes := t.routes_route e
  generalize t.route e = a at hroutes
  cases hroutes with
  | unwinds => exact ⟨_, _, _, rfl, rfl, rfl, rfl, rfl, rfl, Or.inr ⟨rfl, rfl⟩⟩
  | handles => exact ⟨_, _, _, rfl, rfl, rfl, rfl, rfl, rfl, Or.inl ⟨rfl, rfl⟩⟩

end Thread

/-! ### Exceptions on their way -/

/-- An exception is on its way: it is being raised, or handled, or let out of a frame. -/
inductive Activity.Flying (e : Exception) : Activity → Prop
  | raise (t : Thread) : Flying e (t.raise e)
  | route (t : Thread) : Flying e (t.route e)

theorem Activity.not_flying_finished (e : Exception) (r : Except Exception Value) :
    ¬ (Activity.finished r).Flying e := by
  intro h
  generalize hr : Activity.finished r = a at h
  cases h with
  | raise t => cases hr
  | route t =>
      obtain ⟨_, _, _, hroute, -⟩ := t.exists_route e
      rw [hroute] at hr
      cases hr

namespace Exchange

/-- An exception was reported to be raised or to leave a frame. -/
def InFlight (e : Exception) (x : Exchange) : Prop :=
  (x.event = .raise ∨ x.event = .frameUnwind) ∧ x.occurrence.payload.detail = e.told

/-- An exception was reported to be handled. -/
def Lands (e : Exception) (x : Exchange) : Prop :=
  x.event = .exceptionHandled ∧ x.occurrence.payload.detail = e.told

/-- **An exception on its way** is handled, or another fault takes its place, or it stays on its
way, or it is the result of the call. -/
theorem of_flying {x : Exchange} {e : Exception} (h : x.report.Flying e) :
    x.Lands e ∨ (x.InFlight e ∧ ((∃ fault, x.answer = .error fault) ∨
      (x.answer = .ok () ∧ (x.next.Flying e ∨ x.next = .finished (.error e))))) := by
  obtain ⟨t, o, j, heap, answer⟩ := x
  generalize hreport : report ⟨t, o, j, heap, answer⟩ = a at h
  cases h with
  | raise t' =>
      obtain ⟨hthread, rfl, rfl⟩ : t = t' ∧ _ ∧ _ := Activity.reporting.inj hreport
      subst hthread
      refine Or.inr ⟨⟨Or.inl rfl, rfl⟩, ?_⟩
      cases answer with
      | error fault => exact Or.inl ⟨fault, rfl⟩
      | ok u => exact Or.inr ⟨rfl, Or.inl (.route t)⟩
  | route t' =>
      obtain ⟨t'', o', j', hroute, -, -, -, -, htold, hlanding⟩ := t'.exists_route e
      rw [hroute] at hreport
      obtain ⟨rfl, rfl, rfl⟩ := Activity.reporting.inj hreport
      rcases hlanding with ⟨hevent, -⟩ | ⟨hevent, rfl⟩
      · exact Or.inl ⟨hevent, htold⟩
      · refine Or.inr ⟨⟨Or.inr hevent, htold⟩, ?_⟩
        cases answer with
        | error fault => exact Or.inl ⟨fault, rfl⟩
        | ok u =>
            refine Or.inr ⟨rfl, ?_⟩
            show (t.leaveRaising e).Flying e ∨ t.leaveRaising e = _
            unfold Thread.leaveRaising
            split
            · exact Or.inr rfl
            · exact Or.inl (.raise _)

/-- A fault is on its way from then on, or it is the result of the call. -/
theorem flying_next_of_fault {x : Exchange} (hr : x.thread.Reports x.occurrence x.juncture)
    {f : Exception} (ha : x.answer = .error f) :
    x.next.Flying f ∨ x.next = .finished (.error f) := by
  by_cases hraise : x.event = .raise
  · obtain ⟨e, -, -, hnext⟩ := next_of_raise hr hraise
    rw [hnext, ha]
    exact Or.inl (.route _)
  by_cases hunwind : x.event = .frameUnwind
  · obtain ⟨e, -, -, hnext⟩ := next_of_unwind hr hunwind
    rw [hnext, ha]
    show (x.thread.leaveRaising f).Flying f ∨ x.thread.leaveRaising f = _
    unfold Thread.leaveRaising
    split
    · exact Or.inr rfl
    · exact Or.inl (.raise _)
  · obtain ⟨t, -, -, hnext⟩ := next_of_fault hr ha hraise hunwind
    rw [next, hnext]
    exact Or.inl (.raise t)

end Exchange

namespace Activity

/-- **What is on its way lands or is replaced** before a call returns a value. -/
theorem Course.exists_landing {a : Activity} {xs : List Exchange} {v : Value} {e : Exception}
    (h : Course a xs (.finished (.ok v))) (ha : a.Flying e ∨ a = .finished (.error e)) :
    ∃ flight y rest, xs = flight ++ y :: rest ∧
      (∀ z ∈ flight, z.InFlight e ∧ z.answer = .ok ()) ∧
      (y.Lands e ∨ (y.InFlight e ∧ ∃ fault, y.answer = .error fault)) := by
  generalize hb : Activity.finished (.ok v) = b at h
  induction h with
  | refl a =>
      subst hb
      rcases ha with ha | ha
      · exact absurd ha (not_flying_finished e _)
      · cases ha
  | @step x xs b h ih =>
      rcases ha with ha | ha
      · rcases Exchange.of_flying ha with hlands | ⟨hflight, ⟨fault, hfault⟩ | ⟨hok, hnext⟩⟩
        · exact ⟨[], x, xs, rfl, by simp, Or.inl hlands⟩
        · exact ⟨[], x, xs, rfl, by simp, Or.inr ⟨hflight, fault, hfault⟩⟩
        · obtain ⟨flight, y, rest, rfl, hall, hy⟩ := ih hnext hb
          refine ⟨x :: flight, y, rest, rfl, fun z hz => ?_, hy⟩
          rcases List.mem_cons.1 hz with rfl | hz
          · exact ⟨hflight, hok⟩
          · exact hall z hz
      · cases ha

end Activity

/-! ### Calls -/

namespace Machine

/-- **The faults of a call are kept** in its first `n` steps. -/
structure FaultsKept (m : Machine σ) (s : State σ) (n : ℕ) : Prop where
  /-- Control does not go on: the fault is raised in the same frame at the same instruction, and
  the heap is as it was. -/
  raised : ∀ i < n, ∀ x, m.exchangeAt? s i = some x → ∀ f, x.answer = .error f →
    x.event ≠ .raise → x.event ≠ .frameUnwind →
    ∃ t, x.thread.Alike t ∧ (x.event ≠ .exceptionHandled → t = x.thread) ∧
      m.activity? s (i + 1) = some (t.raise f) ∧
      (m.states s (i + 1)).world.heap = (m.states s i).world.heap
  /-- A fault at a raise is handled in the frame or leaves it, instead of what was raised. -/
  rerouted : ∀ i < n, ∀ x, m.exchangeAt? s i = some x → ∀ f, x.answer = .error f →
    x.event = .raise →
    ∃ (t : Thread) (o : Occurrence) (j : Juncture),
      m.activity? s (i + 1) = some (.reporting t o j) ∧ t.below = x.thread.below ∧
      t.top.generator = x.thread.top.generator ∧ t.frame.address = x.thread.frame.address ∧
      t.frame.code = x.thread.frame.code ∧ o.payload.detail = f.told ∧
      (o.event = .exceptionHandled ∨ o.event = .frameUnwind)
  /-- A fault at an unwinding is raised in the frame below, or is the result of the call. -/
  unwound : ∀ i < n, ∀ x, m.exchangeAt? s i = some x → ∀ f, x.answer = .error f →
    x.event = .frameUnwind →
    (x.thread.below = [] → m.activity? s (i + 1) = some (.finished (.error f))) ∧
      ∀ caller rest, x.thread.below = caller :: rest →
        ∃ t : Thread, t.top = caller ∧ t.below = rest ∧ m.activity? s (i + 1) = some (t.raise f)
  /-- A call that returns a value has handled every fault or met another one instead. -/
  settled : ∀ v, m.activity? s n = some (.finished (.ok v)) → ∀ before x after f,
    m.exchanges s n = before ++ x :: after → x.answer = .error f →
    ∃ flight y rest, after = flight ++ y :: rest ∧
      (∀ z ∈ flight, z.InFlight f ∧ z.answer = .ok ()) ∧
      (y.Lands f ∨ (y.InFlight f ∧ ∃ fault, y.answer = .error fault))

/-- **No fault is lost, delayed or altered**, whatever the callbacks do. -/
theorem no_fault_lost {m : Machine σ} {s : State σ} {limit : ℕ} {callable : Value}
    {args : List Value} {k : Except Exception Value → Script σ} {n : ℕ}
    (hcall : s.focus = .script (.call limit callable args k)) (hn : m.Underway s n) :
    m.FaultsKept s n := by
  refine ⟨fun i hi x hx f ha hraise hunwind => ?_, fun i hi x hx f ha he => ?_,
    fun i hi x hx f ha he => ?_, fun v hv before x after f hxs ha => ?_⟩
  · have hc := completes hcall hn hi hx
    obtain ⟨t, halike, hsame, hresume⟩ := Exchange.next_of_fault hc.reports ha hraise hunwind
    refine ⟨t, halike, hsame, ?_, ?_⟩
    · rw [hc.next, Exchange.next, hresume]
    · rw [hc.heap_next, hresume, hc.heap]
  · have hc := completes hcall hn hi hx
    obtain ⟨e, -, -, hnext⟩ := Exchange.next_of_raise hc.reports he
    rw [ha] at hnext
    obtain ⟨t, o, j, hroute, hbelow, hgenerator, haddress, hcode, htold, hevent⟩ :=
      x.thread.exists_route f
    refine ⟨t, o, j, ?_, hbelow, hgenerator, haddress, hcode, htold,
      hevent.imp And.left And.left⟩
    rw [hc.next, hnext, ← hroute]
    rfl
  · obtain ⟨e, -, hnil, hcons⟩ := (completes hcall hn hi hx).of_unwind he
    rw [ha] at hnil hcons
    exact ⟨hnil, hcons⟩
  · have hcourse := course_of_activity? hcall hn hv
    have hsound := (hcourse.sound (Activity.sound_call ..)).2
    rw [hxs] at hcourse hsound
    exact hcourse.of_append.exists_landing
      (Exchange.flying_next_of_fault (hsound x (by simp)) ha)

/-- The fault at the yield lands in the loop, and the call returns a value. -/
theorem looping_fault_lands :
    ∃ before x after flight y rest,
      objecting.exchanges (objecting.states looping 2) 17 = before ++ x :: after ∧
        x.event = .frameYield ∧ after = flight ++ y :: rest ∧
        y.Lands (.runtimeError "no") := by
  obtain ⟨hcall, hn, hfinished⟩ := looping_underway
  have hlength : 6 < (objecting.exchanges (objecting.states looping 2) 17).length := by
    decide +kernel
  have hsplit := (List.take_append_drop 6 _).symm.trans
    (congrArg _ (List.drop_eq_getElem_cons hlength))
  obtain ⟨flight, y, rest, hafter, hflight, hlands | ⟨-, fault, hfault⟩⟩ :=
    (no_fault_lost hcall hn).settled _ hfinished _ _ _ (.runtimeError "no") hsplit rfl
  · exact ⟨_, _, _, flight, y, rest, hsplit, rfl, hafter, hlands⟩
  · have hok : ∀ z ∈ (objecting.exchanges (objecting.states looping 2) 17).drop 7,
        z.answer.isOk = true := by decide +kernel
    have hy := hok y (by rw [hafter]; simp)
    rw [hfault] at hy
    cases hy

end Machine

end Tracepoint
