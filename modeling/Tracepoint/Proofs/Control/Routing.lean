/-
**How far an exception is sent.**

An exception that is raised is sent to the handler of the instruction.  If a callback objects to the
entry of the handler, its fault is raised at the target of the handler at once and sent on from
there.  So a callback that always objects drives an exception from handler to handler, along targets
that the code unit alone determines.  Such a trail ends at an instruction that no handler covers, or
it runs in a circle.  If it ends, the exception comes to rest after few reports, whatever the
callbacks do; if it does not, a callback can keep the exception on its way for ever.  That no
handler covers its own target excludes the circles of one handler only.

Main definitions:

* `Tracepoint.Code.Trail`, `Tracepoint.Code.Escapes` — **the handlers on the way**, and the
  instructions where the trail ends;
* `Tracepoint.Thread.Routing`, `Tracepoint.Thread.AtRest` — an exception is on its way in a frame,
  and has come to rest;
* `Tracepoint.Machine.BringsToRest` — a run in which it comes to rest.

Main results:

* `Tracepoint.Code.Trail.length_le` — a trail passes each handler at most once;
* `Tracepoint.Code.Built.escapes_of_length_le_one` — what the checks exclude;
* `Tracepoint.Exchange.routing_next`, `Tracepoint.Machine.routing_states` — one answer, and a run;
* `Tracepoint.Machine.circles` — a run in which an exception goes round for ever;
* `Tracepoint.Machine.routing_ends_iff` — **exceptions come to rest exactly where the trail ends**.
-/

import Mathlib.Data.List.Perm.Subperm
import Tracepoint.Proofs.Control.Bounds
import Tracepoint.Proofs.Registry.Eligible

set_option relaxedAutoImplicit false
set_option autoImplicit false

namespace Tracepoint

variable {σ : Type}

/-! ### Trails -/

namespace Code

/-- **The handlers on the way** of an exception that is raised at an instruction, if each of them
raises it again at its target: from that instruction to one that no handler covers. -/
inductive Trail (c : Code) : ℕ → List Handler → Prop
  | out {i : ℕ} (h : c.handler? i = none) : Trail c i []
  | on {i : ℕ} {handler : Handler} {handlers : List Handler} (h : c.handler? i = some handler)
      (ht : Trail c handler.target handlers) : Trail c i (handler :: handlers)

/-- The trail from an instruction ends. -/
def Escapes (c : Code) (i : ℕ) : Prop := ∃ handlers, c.Trail i handlers

variable {c : Code} {i : ℕ}

theorem Trail.unique {handlers others : List Handler} (h : c.Trail i handlers)
    (ho : c.Trail i others) : handlers = others := by
  induction h generalizing others with
  | out h =>
      cases ho with
      | out => rfl
      | on ho =>
          rw [h] at ho
          cases ho
  | on h _ ih =>
      cases ho with
      | out ho =>
          rw [h] at ho
          cases ho
      | on ho hto =>
          obtain rfl := Option.some.inj (h.symm.trans ho)
          rw [ih hto]

/-- From every handler on a trail the rest of the trail goes on. -/
theorem Trail.of_append {before after : List Handler} {handler : Handler}
    (h : c.Trail i (before ++ handler :: after)) : c.Trail handler.target after := by
  induction before generalizing i with
  | nil =>
      cases h with
      | on _ ht => exact ht
  | cons _ before ih =>
      cases h with
      | on _ ht => exact ih ht

/-- A trail passes no handler twice, since it would go on from there as it did before. -/
theorem Trail.nodup {handlers : List Handler} (h : c.Trail i handlers) : handlers.Nodup := by
  induction h with
  | out => exact List.nodup_nil
  | @on i handler handlers _ ht ih =>
      refine List.nodup_cons.2 ⟨fun hmem => ?_, ih⟩
      obtain ⟨before, after, rfl⟩ := List.append_of_mem hmem
      have hlength := congrArg List.length (ht.unique ht.of_append)
      simp only [List.length_append, List.length_cons] at hlength
      omega

theorem Trail.subset {handlers : List Handler} (h : c.Trail i handlers) :
    handlers ⊆ c.handlers := by
  induction h with
  | out => exact List.nil_subset _
  | on h _ ih => exact List.cons_subset.2 ⟨List.mem_reverse.1 (List.mem_of_find?_eq_some h), ih⟩

/-- **A trail is no longer than the list of handlers.** -/
theorem Trail.length_le {handlers : List Handler} (h : c.Trail i handlers) :
    handlers.length ≤ c.handlers.length :=
  (List.subperm_of_subset h.nodup h.subset).length_le

theorem escapes_iff_of_some {handler : Handler} (h : c.handler? i = some handler) :
    c.Escapes i ↔ c.Escapes handler.target := by
  constructor
  · rintro ⟨handlers, ht⟩
    cases ht with
    | out hnone =>
        rw [h] at hnone
        cases hnone
    | on ho ht =>
        obtain rfl := Option.some.inj (h.symm.trans ho)
        exact ⟨_, ht⟩
  · rintro ⟨handlers, ht⟩
    exact ⟨_, .on h ht⟩

/-- **What the checks exclude**: a handler alone does not send exceptions back to itself. -/
theorem Built.escapes_of_length_le_one (hb : c.Built) (h : c.handlers.length ≤ 1) (i : ℕ) :
    c.Escapes i := by
  cases hi : c.handler? i with
  | none => exact ⟨[], .out hi⟩
  | some handler =>
      have hmem := List.mem_reverse.1 (List.mem_of_find?_eq_some hi)
      obtain ⟨d, -, hfinishes⟩ := hb.exists_finishes
      have hown := (hfinishes.handlers handler hmem).2.1
      obtain ⟨other, hother⟩ := List.length_eq_one_iff.1
        (Nat.le_antisymm h (List.length_pos_of_mem hmem))
      rw [hother, List.mem_singleton] at hmem
      subst hmem
      exact ⟨[handler], .on hi (.out (by simp [handler?, hother, hown]))⟩

end Code

/-! ### Exceptions on their way -/

namespace Thread

/-- It is still the same frame that runs. -/
structure InFrame (t t' : Thread) : Prop where
  below : t'.below = t.below
  generator : t'.top.generator = t.top.generator
  address : t'.frame.address = t.frame.address
  code : t'.frame.code = t.frame.code

@[refl] theorem InFrame.refl (t : Thread) : t.InFrame t := ⟨rfl, rfl, rfl, rfl⟩

theorem InFrame.withFrame {t t' : Thread} {f : Frame} (h : t.InFrame t')
    (ha : f.address = t'.frame.address) (hc : f.code = t'.frame.code) :
    t.InFrame (t'.withFrame f) :=
  ⟨h.below, h.generator, ha.trans h.address, hc.trans h.code⟩

/-- **An exception is on its way in the frame of `t`**, with at most `n` answers to come: it is
raised at an instruction, or it enters a handler. -/
inductive Routing (t : Thread) : ℕ → Activity → Prop
  | raised {t' : Thread} {e : Exception} {handlers : List Handler} (hf : t.InFrame t')
      (ht : t'.frame.code.Trail t'.frame.pc handlers) :
      Routing t (2 * handlers.length + 1) (t'.raise e)
  | handled {t' : Thread} {e : Exception} {handler : Handler} {handlers : List Handler}
      (hf : t.InFrame t') (hh : handler ∈ t'.frame.code.handlers)
      (hpc : t'.frame.pc = handler.target) (ht : t'.frame.code.Trail t'.frame.pc handlers) :
      Routing t (2 * handlers.length + 2) (t'.report .exceptionHandled e.told (.handled e))

/-- **An exception in the frame of `t` has come to rest**: it is about to leave the frame, as no
handler covers the instruction; or the frame goes on at the target of a handler, with the exception
on top of its stack. -/
inductive AtRest (t : Thread) : Activity → Prop
  | unwinds {t' : Thread} {e : Exception} (hf : t.InFrame t')
      (hnone : t'.frame.code.handler? t'.frame.pc = none) :
      AtRest t (t'.report .frameUnwind e.told (.unwound e))
  | handled {t' : Thread} {o : Occurrence} {j : Juncture} {handler : Handler} {e : Exception}
      {stack : List Value} (hf : t.InFrame t') (hh : handler ∈ t'.frame.code.handlers)
      (hpc : t'.frame.pc = handler.target) (hs : t'.frame.stack = .exception e :: stack)
      (ho : o.event = .line ∨ o.event = .instruction) : AtRest t (.reporting t' o j)

theorem Routing.exists_report {t : Thread} {n : ℕ} {a : Activity} (h : t.Routing n a) :
    0 < n ∧ ∃ t' o j, a = .reporting t' o j := by
  cases h with
  | raised => exact ⟨by omega, _, _, _, rfl⟩
  | handled => exact ⟨by omega, _, _, _, rfl⟩

/-- An exception that is raised where the trail ends is on its way. -/
theorem routing_raise {t : Thread} (h : t.frame.code.Escapes t.frame.pc) (e : Exception) :
    ∃ n, n ≤ 2 * t.frame.code.handlers.length + 1 ∧ t.Routing n (t.raise e) := by
  obtain ⟨handlers, ht⟩ := h
  have hle := ht.length_le
  exact ⟨_, by omega, .raised (.refl t) ht⟩

/-- What routes an exception: it leaves the frame, or is sent to the next handler of its trail. -/
theorem routing_route {t t' : Thread} (hf : t.InFrame t') {handlers : List Handler}
    (ht : t'.frame.code.Trail t'.frame.pc handlers) (e : Exception) :
    t.AtRest (t'.route e) ∨ t.Routing (2 * handlers.length) (t'.route e) := by
  cases ht with
  | out hnone =>
      rw [route_eq_of_none hnone]
      exact Or.inl (.unwinds hf hnone)
  | @on _ handler handlers hsome ht =>
      obtain ⟨-, bottom, -, -, hroute⟩ := exists_route_eq hsome e
      rw [hroute]
      have hmem := List.mem_reverse.1 (List.mem_of_find?_eq_some hsome)
      exact Or.inr (.handled (hf.withFrame rfl rfl) hmem rfl ht)

end Thread

/-- **One answer** brings an exception to rest, or nearer to it. -/
theorem Exchange.routing_next {x : Exchange} {t : Thread} {n : ℕ} (hb : t.frame.code.Built)
    (h : t.Routing n x.report) :
    t.AtRest x.next ∨ ∃ n', n = n' + 1 ∧ t.Routing n' x.next := by
  obtain ⟨thread, o, j, heap, answer⟩ := x
  generalize ha : Exchange.report _ = a at h
  cases h with
  | @raised t' e handlers hf ht =>
      obtain ⟨rfl, -, rfl⟩ := Activity.reporting.inj ha
      cases answer with
      | ok _ => exact (Thread.routing_route hf ht e).imp_right fun hr => ⟨_, rfl, hr⟩
      | error fault => exact (Thread.routing_route hf ht fault).imp_right fun hr => ⟨_, rfl, hr⟩
  | @handled t' e handler handlers hf hh hpc ht =>
      obtain ⟨rfl, -, rfl⟩ := Activity.reporting.inj ha
      have hpush := hf.withFrame (f := thread.frame.push (.exception e)) rfl rfl
      cases answer with
      | error fault => exact Or.inr ⟨_, rfl, .raised hpush ht⟩
      | ok _ =>
          obtain ⟨d, -, hfinishes⟩ := hb.exists_finishes
          rw [hf.code] at hh
          have hlt : thread.frame.pc < thread.frame.code.size := by
            rw [hpc, hf.code, Code.size, hfinishes.rows]
            exact (hfinishes.handlers handler hh).2.2
          obtain ⟨t'', o, j, hfetch, halike, hstack, hevent⟩ :=
            Thread.exists_fetch (thread.withFrame (thread.frame.push (.exception e)))
          obtain ⟨i, hi⟩ := Code.exists_instruction hlt
          left
          show t.AtRest (thread.withFrame (thread.frame.push (.exception e))).fetch
          rw [hfetch]
          have hframe : t.InFrame t'' := ⟨halike.below.trans hf.below,
            halike.generator.trans hf.generator, halike.frame.address.trans hf.address,
            halike.frame.code.trans hf.code⟩
          have hmem : handler ∈ t''.frame.code.handlers := by rwa [hframe.code]
          exact .handled hframe hmem (halike.frame.pc.trans hpc) hstack
            (hevent (Option.isSome_iff_exists.2 ⟨i, hi⟩))

namespace Machine

variable {m : Machine σ} {t : Thread} {k : Except Exception Value → Script σ}

/-- **A run brings an exception to rest** within as many answers as are to come. -/
theorem routing_states (hb : t.frame.code.Built) {bound : ℕ} {a : Activity}
    (hr : t.Routing bound a) (w : World σ) (levels : List (Level σ)) (n : ℕ) :
    (∃ i ≤ n, ∃ b, m.activity? ⟨w, levels, .thread a k⟩ i = some b ∧ t.AtRest b) ∨
    ∃ b left, (m.states ⟨w, levels, .thread a k⟩ n).Runs levels k b ∧ t.Routing left b ∧
      (m.exchanges ⟨w, levels, .thread a k⟩ n).length + left = bound := by
  induction n with
  | zero => exact Or.inr ⟨a, bound, .going w a, hr, by simp [exchanges]⟩
  | succ n ih =>
      rcases ih with ⟨i, hi, hrest⟩ | ⟨b, left, hruns, hrouting, hlength⟩
      · exact Or.inl ⟨i, by omega, hrest⟩
      obtain ⟨-, t', o, j, rfl⟩ := hrouting.exists_report
      rw [exchanges_succ, List.length_append]
      rcases runs_states_succ (s := ⟨w, levels, .thread a k⟩) hruns with
        ⟨x, hx, hreport, hheap, hstep⟩ | ⟨hnone, hruns'⟩
      · have hnext : (m.states ⟨w, levels, .thread a k⟩ (n + 1)).Runs levels k x.next := by
          rw [hstep]
          exact runs_follow hheap levels
        rw [← hreport] at hrouting
        rcases Exchange.routing_next hb hrouting with hrest | ⟨left', rfl, hrouting'⟩
        · exact Or.inl ⟨n + 1, Nat.le_refl _, x.next, hnext.activityAt?, hrest⟩
        · refine Or.inr ⟨x.next, left', hnext, hrouting', ?_⟩
          rw [hx, Option.toList_some, List.length_singleton]
          omega
      · refine Or.inr ⟨_, left, hruns', hrouting, ?_⟩
        rw [hnone, Option.toList_none, List.length_nil]
        omega

/-- **An exception that is raised in the frame of `t` comes to rest** in a run: after so many
answers it has done so. -/
def BringsToRest (m : Machine σ) (t : Thread) (s : State σ) : Prop :=
  ∃ bound, ∀ n, bound ≤ (m.exchanges s n).length →
    ∃ i ≤ n, ∃ a, m.activity? s i = some a ∧ t.AtRest a

theorem atRest_of_escapes (hb : t.frame.code.Built) (h : t.frame.code.Escapes t.frame.pc)
    (e : Exception) (w : World σ) (levels : List (Level σ)) {n : ℕ}
    (hn : 2 * t.frame.code.handlers.length + 1 ≤
      (m.exchanges ⟨w, levels, .thread (t.raise e) k⟩ n).length) :
    ∃ i ≤ n, ∃ a, m.activity? ⟨w, levels, .thread (t.raise e) k⟩ i = some a ∧ t.AtRest a := by
  obtain ⟨bound, hbound, hr⟩ := Thread.routing_raise h e
  rcases routing_states hb hr w levels n with hrest | ⟨a, left, -, hrouting, hlength⟩
  · exact hrest
  · have hpos := hrouting.exists_report.1
    omega

end Machine

/-! ### Going round in circles -/

/-- An exception is raised or handled. -/
def Activity.routes : Activity → Bool
  | .reporting _ o _ => o.event == .raise || o.event == .exceptionHandled
  | .finished _ => false

theorem Thread.AtRest.routes_eq_false {t : Thread} {a : Activity} (h : t.AtRest a) :
    a.routes = false := by
  cases h with
  | unwinds => rfl
  | handled _ _ _ _ ho => rcases ho with ho | ho <;> simp [Activity.routes, ho]

/-- A tool that listens for the entries of handlers. -/
def guarding : Registry :=
  .operated [.claim .debugger "guard",
    .register .debugger .exceptionHandled (some ⟨0, .exception⟩),
    .setGlobal .debugger (.single .exceptionHandled)]

theorem target?_guarding (t : Tool) (code : CodeId) (offset : ℕ) :
    guarding.target? t ⟨.exceptionHandled, code, offset⟩ =
      if t = .debugger then some ⟨0, .exception⟩ else none := by
  by_cases ht : t = .debugger
  · subst ht
    have hglobal : (guarding.slot .debugger).globalEvents = .single .exceptionHandled := rfl
    have hlocal : (guarding.slot .debugger).localSet code = ∅ := rfl
    have hdisabled : (guarding.slot .debugger).disabled = ∅ := rfl
    have hcallback : (guarding.slot .debugger).callback? .exceptionHandled =
      some ⟨0, .exception⟩ := rfl
    simp [Registry.target?_eq, Slot.target?, Slot.effective, Slot.isDisabled, hglobal, hlocal,
      hdisabled, hcallback, Event.parent?]
  · have hcallback : ∀ t : Tool, t ≠ .debugger →
        (guarding.slot t).callback? .exceptionHandled = none := by decide
    rw [if_neg ht, Option.eq_none_iff_forall_ne_some]
    intro c hc
    have hsome := (Registry.target?_eq_some.1 hc).2.2
    rw [hcallback t ht] at hsome
    cases hsome

/-- The tool is told about every entry of a handler. -/
theorem targets_guarding (code : CodeId) (offset : ℕ) :
    guarding.targets ⟨.exceptionHandled, code, offset⟩ = [(.debugger, ⟨0, .exception⟩)] := by
  simp only [Registry.targets, target?_guarding]
  rfl

namespace Machine

/-- What the callback of the tool objects with. -/
def objection : Exception := .runtimeError "no"

section Round

variable (t : Thread) (e : Exception) (heap : Heap)

/-- An exception is raised while the tool listens. -/
def circling : State Unit :=
  ⟨⟨guarding, heap, ()⟩, [], .thread (t.raise e) fun _ => .done⟩

/-- The entry of a handler, and how the tool is told about it. -/
def entry : Occurrence :=
  ⟨.exceptionHandled, .loaded t.frame.address t.frame.code, t.frame.offset, e.told⟩

/-- A handler is entered. -/
def entering : State Unit :=
  ⟨⟨guarding, heap, ()⟩, [], .thread (.reporting t (entry t e) (.handled e)) fun _ => .done⟩

/-- The tool is to be told about it. -/
def telling : State Unit :=
  ⟨⟨guarding, heap, ()⟩, [], .dispatch
    ⟨entry t e, [(.debugger, ⟨0, .exception⟩)], guarding.version⟩
    (.thread t (.handled e) fun _ => .done)⟩

/-- The callback of the tool objects. -/
def answering : State Unit :=
  ⟨⟨guarding, heap, ()⟩, [⟨.debugger, ⟨0, .exception⟩, ⟨entry t e, [], guarding.version⟩,
    .thread t (.handled e) fun _ => .done⟩], .script (.answer (.error objection))⟩

theorem opens_raise : objecting.policy.opens guarding .raise = false := by decide

theorem opens_exceptionHandled : objecting.policy.opens guarding .exceptionHandled = true := by
  decide

theorem advance_circling {t' : Thread} (h : t.route e = .reporting t' (entry t' e) (.handled e)) :
    objecting.advance (circling t e heap) = entering t' e heap := by
  show objecting.openDispatch _ _ _ _ = _
  rw [openDispatch, if_neg (by rw [opens_raise]; exact Bool.false_ne_true)]
  show (⟨_, [], .thread (t.route e) _⟩ : State Unit) = _
  rw [h, entering]

theorem advance_entering : objecting.advance (entering t e heap) = telling t e heap := by
  have hopens : objecting.policy.opens guarding (entry t e).event = true := opens_exceptionHandled
  show objecting.openDispatch _ _ (entry t e) _ = _
  rw [openDispatch, if_pos hopens, Registry.dispatch, Occurrence.site, entry, targets_guarding]
  rfl

theorem advance_telling : objecting.advance (telling t e heap) = answering t e heap := by
  have hchoose : objecting.policy.choose guarding
      ⟨entry t e, [(.debugger, ⟨0, .exception⟩)], guarding.version⟩ .debugger ⟨0, .exception⟩ =
        some ⟨0, .exception⟩ := by
    have hsnapshot : objecting.policy.choose = Dispatch.choose := rfl
    rw [hsnapshot, Dispatch.choose, if_pos rfl]
  exact advanceDispatch_some (w := ⟨guarding, heap, ()⟩) rfl hchoose rfl

theorem advance_answering :
    objecting.advance (answering t e heap) =
      circling (t.withFrame (t.frame.push (.exception e))) objection heap := rfl

/-- Nobody listens for the exception itself, so that it is answered at once. -/
theorem exchange?_circling : objecting.exchange? (circling t e heap) =
    some ⟨t, ⟨.raise, .loaded t.frame.address t.frame.code, t.frame.offset, e.told⟩, .raised e,
      heap, .ok ()⟩ := by
  simp only [exchange?, circling, Thread.raise, Thread.report, opens_raise]
  rfl

theorem exchange?_entering : objecting.exchange? (entering t e heap) = none := by
  simp only [exchange?, entering, entry, opens_exceptionHandled, if_true]

theorem exchange?_telling : objecting.exchange? (telling t e heap) = none := rfl

theorem exchange?_answering : objecting.exchange? (answering t e heap) =
    some ⟨t, entry t e, .handled e, heap, .error objection⟩ := rfl

end Round

/-- **One round**: the exception is sent to the next handler, and what the callback objects with is
raised at its target. -/
theorem states_circling {t : Thread} {handler : Handler}
    (hh : t.frame.code.handler? t.frame.pc = some handler) (e : Exception) (heap : Heap) :
    ∃ t', t.InFrame t' ∧ t'.frame.pc = handler.target ∧
      objecting.states (circling t e heap) 4 = circling t' objection heap ∧
      (objecting.exchanges (circling t e heap) 4).length = 2 ∧
      ∀ i < 4, ∃ a, objecting.activity? (circling t e heap) i = some a ∧ a.routes = true := by
  obtain ⟨-, bottom, -, -, hroute⟩ := Thread.exists_route_eq hh e
  generalize ht' : t.withFrame { t.frame with
    pc := handler.target, jumped := true, stack := bottom } = t' at hroute
  have hf : t.InFrame t' := by
    rw [← ht']
    exact (Thread.InFrame.refl t).withFrame rfl rfl
  have hpc : t'.frame.pc = handler.target := by rw [← ht']; rfl
  have h₁ : objecting.states (circling t e heap) 1 = entering t' e heap :=
    advance_circling t e heap hroute
  have h₂ : objecting.states (circling t e heap) 2 = telling t' e heap := by
    rw [states_succ, h₁, advance_entering]
  have h₃ : objecting.states (circling t e heap) 3 = answering t' e heap := by
    rw [states_succ, h₂, advance_telling]
  have h₄ : objecting.states (circling t e heap) 4 =
      circling (t'.withFrame (t'.frame.push (.exception e))) objection heap := by
    rw [states_succ, h₃, advance_answering]
  refine ⟨t'.withFrame (t'.frame.push (.exception e)), hf.withFrame rfl rfl, hpc, h₄, ?_, ?_⟩
  · simp only [exchanges_succ, exchangeAt?, states_zero, h₁, h₂, h₃, h₄, exchange?_circling,
      exchange?_entering, exchange?_telling, exchange?_answering, ite_self]
    rfl
  · intro i hi
    obtain rfl | rfl | rfl | rfl : i = 0 ∨ i = 1 ∨ i = 2 ∨ i = 3 := by omega
    · exact ⟨_, rfl, rfl⟩
    · exact ⟨_, by rw [activity?, h₁]; rfl, rfl⟩
    · exact ⟨_, by rw [activity?, h₂]; rfl, rfl⟩
    · exact ⟨_, by rw [activity?, h₃]; rfl, rfl⟩

/-- **Where the trail does not end the exception goes round for ever**, as long as the callback
objects. -/
theorem circles {t : Thread} (h : ¬t.frame.code.Escapes t.frame.pc) (e : Exception) (heap : Heap)
    (rounds : ℕ) :
    (objecting.exchanges (circling t e heap) (4 * rounds)).length = 2 * rounds ∧
      ∀ i < 4 * rounds,
        ∃ a, objecting.activity? (circling t e heap) i = some a ∧ a.routes = true := by
  induction rounds generalizing t e with
  | zero => exact ⟨rfl, nofun⟩
  | succ rounds ih =>
      cases hh : t.frame.code.handler? t.frame.pc with
      | none => exact absurd ⟨[], .out hh⟩ h
      | some handler =>
          obtain ⟨t', hf, hpc, hround, hlength, hroutes⟩ := states_circling hh e heap
          have hon : ¬t'.frame.code.Escapes t'.frame.pc := by
            rwa [hf.code, hpc, ← Code.escapes_iff_of_some hh]
          obtain ⟨hlength', hroutes'⟩ := ih hon objection
          have hl : (objecting.states (circling t e heap) 4).levels.length =
              (circling t e heap).levels.length := by
            rw [hround]
            rfl
          rw [show 4 * (rounds + 1) = 4 + 4 * rounds by omega]
          constructor
          · rw [exchanges_add hl, List.length_append, hlength, hround, hlength']
            omega
          · intro i hi
            rcases Nat.lt_or_ge i 4 with hlt | hge
            · exact hroutes i hlt
            · obtain ⟨j, rfl⟩ := Nat.exists_eq_add_of_le hge
              rw [activity?_add hl, hround]
              exact hroutes' j (by omega)

theorem not_bringsToRest {t : Thread} (h : ¬t.frame.code.Escapes t.frame.pc) (e : Exception)
    (heap : Heap) : ¬objecting.BringsToRest t (circling t e heap) := by
  rintro ⟨bound, hbound⟩
  have hlength := (circles h e heap bound).1
  obtain ⟨i, hi, a, ha, hrest⟩ := hbound (4 * bound) (by omega)
  obtain ⟨b, hb, hroutes⟩ := (circles h e heap (bound + 1)).2 i (by omega)
  obtain rfl : a = b := Option.some.inj (ha.symm.trans hb)
  rw [hrest.routes_eq_false] at hroutes
  cases hroutes

/-- **Exceptions come to rest exactly where the trail ends**: whatever the callbacks do, with two
answers for each handler and one more.  Where it does not, an objecting callback keeps them on their
way.  With one handler at most, the checks of a code unit make every trail end. -/
theorem routing_ends_iff {t : Thread} (hb : t.frame.code.Built) (e : Exception) :
    ((∀ (σ : Type) (m : Machine σ) (w : World σ) (levels : List (Level σ))
        (k : Except Exception Value → Script σ),
        m.BringsToRest t ⟨w, levels, .thread (t.raise e) k⟩) ↔
      t.frame.code.Escapes t.frame.pc) ∧
    (t.frame.code.Escapes t.frame.pc →
      ∀ (σ : Type) (m : Machine σ) (w : World σ) (levels : List (Level σ))
        (k : Except Exception Value → Script σ) (n : ℕ),
        2 * t.frame.code.handlers.length + 1 ≤
            (m.exchanges ⟨w, levels, .thread (t.raise e) k⟩ n).length →
          ∃ i ≤ n, ∃ a,
            m.activity? ⟨w, levels, .thread (t.raise e) k⟩ i = some a ∧ t.AtRest a) ∧
    (t.frame.code.handlers.length ≤ 1 → t.frame.code.Escapes t.frame.pc) := by
  refine ⟨⟨fun hall => ?_, fun h σ m w levels k => ⟨_, fun n => atRest_of_escapes hb h e w levels⟩⟩,
    fun h σ m w levels k n => atRest_of_escapes hb h e w levels,
    fun hone => hb.escapes_of_length_le_one hone _⟩
  by_contra hno
  exact not_bringsToRest hno e .empty (hall Unit objecting _ _ _)

/-- A thread that runs a loop with one handler. -/
def drainer : Thread :=
  .start 9 ⟨⟨1, drain, 2, #[.null], [], none, false, true⟩, none⟩

/-- Though the callback objects, what is raised in the loop comes to rest with the third answer. -/
theorem drainer_rests :
    drain.Built ∧ ∃ i ≤ 5, ∃ a,
      objecting.activity? (circling drainer objection .empty) i = some a ∧ drainer.AtRest a := by
  have hbuilt : drain.Built := loaded_listening.built 1 drain rfl
  obtain ⟨-, hrest, hone⟩ := routing_ends_iff (t := drainer) hbuilt objection
  have hanswers : 3 ≤ (objecting.exchanges (circling drainer objection .empty) 5).length := by
    decide +kernel
  exact ⟨hbuilt, hrest (hone (by decide)) Unit objecting _ _ _ 5 hanswers⟩

/-! ### Two handlers -/

/-- A function that raises an exception, with a handler for the whole of it.  The handler has a
handler of its own, which starts the function again. -/
def again : Code where
  name := "again"
  firstLine := 1
  params := 0
  locals := 0
  isGenerator := false
  rows := #[⟨.loadConst 0, none, false⟩, ⟨.raise, none, false⟩, ⟨.ret, none, false⟩]
  labels := #[0, 2, 3]
  handlers := [⟨0, 2, 2, 0⟩, ⟨2, 3, 0, 0⟩]
  consts := #[.exception (.runtimeError "lost")]

theorem built_again : again.Built :=
  Source.built_of_build
    (s := ⟨"again", 1, 0, false, [.label, .label, .label, .bind ⟨0⟩,
      .load (.exception (.runtimeError "lost")), .emit .raise, .bind ⟨1⟩, .emit .ret, .bind ⟨2⟩,
      .handler ⟨⟨0⟩, ⟨1⟩, ⟨1⟩, 0⟩, .handler ⟨⟨1⟩, ⟨2⟩, ⟨0⟩, 0⟩]⟩)
    rfl

/-- Its two handlers send exceptions to each other. -/
theorem not_escapes_again : ¬again.Escapes 1 := by
  have hfirst : again.handler? 0 = some ⟨0, 2, 2, 0⟩ := rfl
  have hsecond : again.handler? 2 = some ⟨2, 3, 0, 0⟩ := rfl
  have hraise : again.handler? 1 = some ⟨0, 2, 2, 0⟩ := rfl
  rw [Code.escapes_iff_of_some hraise]
  rintro ⟨handlers, h⟩
  cases h with
  | out hnone => cases hsecond.symm.trans hnone
  | @on _ _ rest hsome hrest =>
      obtain rfl := Option.some.inj (hsecond.symm.trans hsome)
      cases hrest with
      | out hnone => cases hfirst.symm.trans hnone
      | @on _ _ round hsome' hround =>
          obtain rfl := Option.some.inj (hfirst.symm.trans hsome')
          -- after one round the trail is as long as before
          have hlength := congrArg List.length
            (Code.Trail.unique (.on hsecond (.on hfirst hround)) hround)
          simp only [List.length_cons] at hlength
          omega

/-- The function is called while the tool listens. -/
def calling : State Unit :=
  .initial ⟨guarding, { Heap.empty with codes := #[again] }, ()⟩
    (.call 9 (.function 0) [] fun _ => .done)

/-- The thread that has just raised the exception. -/
def thrower : Thread :=
  .start 9 ⟨⟨0, again, 1, #[], [], none, false, true⟩, none⟩

/-- The exception that it raises never comes to rest, though the code unit was built. -/
theorem again_and_again :
    again.Built ∧
      objecting.states calling 4 =
        circling thrower (.runtimeError "lost") { Heap.empty with codes := #[again] } ∧
      ¬objecting.BringsToRest thrower (objecting.states calling 4) ∧
      ∀ n, ∃ a, objecting.activity? (objecting.states calling 4) n = some a ∧ a.routes = true := by
  have hthrown : objecting.states calling 4 =
      circling thrower (.runtimeError "lost") { Heap.empty with codes := #[again] } := rfl
  have hno : ¬thrower.frame.code.Escapes thrower.frame.pc := not_escapes_again
  rw [hthrown]
  refine ⟨built_again, rfl, not_bringsToRest hno _ _, fun n => ?_⟩
  exact (circles hno _ _ (n + 1)).2 n (by omega)

end Machine

end Tracepoint
