/-
**The gate before a dispatch is exact.**

Whether an event is reported at all is decided by one look at the union of armed events, before
anybody asks which tools get the report.  The union is computed in a way of its own: all that is
armed anywhere is joined first, and derived events are added at the end, while a tool gets a report
for what is delivered to it in the code unit.  This module proves that the look does no harm and no
more than it should.  An event is let through exactly if some tool has armed it, or the event that
it accompanies, in some code unit; and whenever it is not let through, no tool would get it.

A machine without the gate therefore does the same with one more step at each report that nobody
has armed: it opens a dispatch that has nobody to call.

Main definitions:

* `Tracepoint.Policy.ungated`, `Tracepoint.Machine.ungated` — **the rule without the gate**.

Main results:

* `Tracepoint.Registry.Reachable.isArmed_iff` — which events are let through;
* `Tracepoint.Registry.Reachable.targets_eq_nil` — **what is not let through goes to nobody**;
* `Tracepoint.Machine.ungated_leads` — the machine without the gate follows step by step;
* `Tracepoint.Machine.gate_exact` — **the gate is exact**, and a machine without it does the same.
-/

import Tracepoint.Proofs.Delivery.Snapshot
import Tracepoint.Proofs.Machine.Observation
import Tracepoint.Proofs.Registry.Tidiness

set_option relaxedAutoImplicit false
set_option autoImplicit false

namespace Tracepoint

variable {σ : Type}

/-! ### What is armed somewhere -/

namespace Registry

/-- A tool that has armed something has an owner. -/
theorem Reachable.inUse_of_arms {r : Registry} (h : r.Reachable) {t : Tool} {e : Event}
    (he : (r.slot t).Arms e) : (r.slot t).inUse = true := by
  by_contra hu
  obtain ⟨hglobal, hlocal, -⟩ := h.unowned (Bool.not_eq_true _ ▸ hu)
  rcases he with he | ⟨code, he⟩
  · rw [hglobal, EventSet.has_empty] at he
    cases he
  · rw [hlocal, EventSet.has_empty] at he
    cases he

/-- **An event is let through exactly if a tool has armed it**, or the event that it accompanies,
somewhere. -/
theorem Reachable.isArmed_iff {r : Registry} (h : r.Reachable) (e : Event) :
    r.isArmed e = true ↔ ∃ t, (r.slot t).Arms e.gate := by
  rw [isArmed, h.armed_eq, Tables.has_armed_iff]
  exact exists_congr fun t => (h.tidy t).delivers_iff e

/-- **What is not let through goes to nobody**, in whichever code unit it happens. -/
theorem Reachable.targets_eq_nil {r : Registry} (h : r.Reachable) {site : Site}
    (hoff : r.isArmed site.event = false) : r.targets site = [] := by
  rw [List.eq_nil_iff_forall_not_mem]
  rintro ⟨t, c⟩ htarget
  have harmed := h.isArmed_of_effective (target?_eq_some.1 (mem_targets.1 htarget)).1
  rw [hoff] at harmed
  cases harmed

end Registry

/-! ### The rule without the gate -/

/-- **The rule without the gate**: every event is reported. -/
def Policy.ungated : Policy := ⟨fun _ _ => true, Dispatch.choose⟩

/-- The machine without the gate. -/
def Machine.ungated (behave : Callback → Payload → Script σ) : Machine σ := ⟨behave, .ungated⟩

namespace Machine

section Ungated

variable {behave : Callback → Payload → Script σ}

/-- The two machines call the same callback in every state. -/
theorem invocation?_ungated (behave : Callback → Payload → Script σ) :
    (ungated behave).invocation? = (Machine.of behave).invocation? := by
  funext s
  obtain ⟨w, levels, focus⟩ := s
  -- they differ in the steps that hand a report in, and these call nobody
  have opened : ∀ {s : State σ} {o : Occurrence} {waiter : Waiter σ}, s.levels = levels →
      (∀ m : Machine σ, m.advance s = m.openDispatch w levels o waiter) →
      (ungated behave).invocation? s = (Machine.of behave).invocation? s := fun hs h => by
    rw [invocation?_of_levels (by rw [h, levels_openDispatch, hs]),
      invocation?_of_levels (by rw [h, levels_openDispatch, hs])]
  cases focus with
  | dispatch d waiter => rfl
  | script script =>
      cases script with
      | fire o k => exact opened rfl fun _ => rfl
      | _ => rfl
  | thread a k =>
      cases a with
      | finished r => rfl
      | reporting t o j => exact opened rfl fun _ => rfl

/-- A report is opened, or it has nobody to go to and is over at once. -/
theorem openDispatch_cases (behave : Callback → Payload → Script σ) {w : World σ}
    (hw : w.registry.Reachable) (levels : List (Level σ)) (o : Occurrence) (waiter : Waiter σ) :
    (Machine.of behave).openDispatch w levels o waiter =
        ⟨w, levels, .dispatch (w.registry.dispatch o) waiter⟩ ∨
      w.registry.targets o.site = [] ∧
        (Machine.of behave).openDispatch w levels o waiter =
          State.wake w levels waiter (.ok ()) := by
  cases harmed : w.registry.isArmed o.event with
  | true => exact Or.inl (if_pos harmed)
  | false => exact Or.inr ⟨hw.targets_eq_nil harmed, if_neg (Bool.eq_false_iff.1 harmed)⟩

/-- A report that goes to somebody is opened. -/
theorem openDispatch_of_target? (behave : Callback → Payload → Script σ) {w : World σ}
    (hw : w.registry.Reachable) {o : Occurrence} {t : Tool} {c : Callback}
    (h : w.registry.target? t o.site = some c) (levels : List (Level σ)) (waiter : Waiter σ) :
    (Machine.of behave).openDispatch w levels o waiter =
      ⟨w, levels, .dispatch (w.registry.dispatch o) waiter⟩ := by
  rcases openDispatch_cases behave hw levels o waiter with hopen | ⟨hnobody, -⟩
  · exact hopen
  · have hmem := Registry.mem_targets.2 h
    rw [hnobody] at hmem
    cases hmem

/-- A report is opened without the gate as with it, or it has nobody to go to and is over one step
later. -/
theorem openDispatch_ungated {w : World σ} (hw : w.registry.Reachable) (levels : List (Level σ))
    (o : Occurrence) (waiter : Waiter σ) :
    (ungated behave).openDispatch w levels o waiter =
        (Machine.of behave).openDispatch w levels o waiter ∨
      (ungated behave).invocation? ((ungated behave).openDispatch w levels o waiter) = none ∧
        (ungated behave).advance ((ungated behave).openDispatch w levels o waiter) =
          (Machine.of behave).openDispatch w levels o waiter := by
  have hopened : (ungated behave).openDispatch w levels o waiter =
      ⟨w, levels, .dispatch (w.registry.dispatch o) waiter⟩ := if_pos rfl
  rcases openDispatch_cases behave hw levels o waiter with hgated | ⟨hnobody, hgated⟩
  · exact Or.inl (hopened.trans hgated.symm)
  · have hpending : (w.registry.dispatch o).pending = [] := hnobody
    rw [hopened, hgated]
    exact Or.inr ⟨invocation?_of_nil hpending, advanceDispatch_nil hpending⟩

/-- A step with the gate is a step without it, or two steps of which the second one calls
nobody. -/
theorem advance_ungated (behave : Callback → Payload → Script σ) {s : State σ}
    (hs : s.world.registry.Reachable) :
    (ungated behave).advance s = (Machine.of behave).advance s ∨
      (ungated behave).invocation? ((ungated behave).advance s) = none ∧
        (ungated behave).advance ((ungated behave).advance s) = (Machine.of behave).advance s := by
  obtain ⟨w, levels, focus⟩ := s
  cases focus with
  | script script =>
      cases script with
      | fire o k => exact openDispatch_ungated hs levels o (.script k)
      | _ => exact Or.inl rfl
  | dispatch d waiter => exact Or.inl rfl
  | thread a k =>
      cases a with
      | finished r => exact Or.inl rfl
      | reporting t o j => exact openDispatch_ungated hs levels o (.thread t j k)

/-- **The machine without the gate follows step by step**, with the same calls. -/
theorem ungated_leads (behave : Callback → Payload → Script σ) {s : State σ}
    (hs : s.world.registry.Reachable) (n : ℕ) :
    ∃ k, n ≤ k ∧ (ungated behave).Leads (ungated behave).invocation? s k
      ((Machine.of behave).invocations s n) ((Machine.of behave).states s n) := by
  induction n with
  | zero => exact ⟨0, Nat.le_refl 0, .refl ..⟩
  | succ n ih =>
      obtain ⟨k, hnk, hleads⟩ := ih
      have hcalls : (Machine.of behave).invocations s (n + 1) =
          (Machine.of behave).invocations s n ++
            ((ungated behave).invocation? ((Machine.of behave).states s n)).toList := by
        rw [invocation?_ungated, ← observed_one (Machine.of behave)]
        exact observed_add ..
      have hnext := hleads.trans (.step (ungated behave) _ _)
      rw [← hcalls] at hnext
      rw [states_succ]
      rcases advance_ungated behave (reachable_states _ hs n) with
        heq | ⟨hnone, heq⟩
      · rw [heq] at hnext
        exact ⟨k + 1, by omega, hnext⟩
      -- the dispatch that was opened has nobody to call
      · have hover := hnext.trans (.step_of_none hnone)
        rw [heq, List.append_nil] at hover
        exact ⟨k + 1 + 1, by omega, hover⟩

end Ungated

/-- **The gate is exact.**  An event is let through exactly if some tool with an owner has armed it,
or the event that it accompanies, everywhere or in some code unit; these are the events of the
table of all events; and no tool that an event goes to anywhere misses it.  A machine without the
gate, from any state on, whatever is reported there and by whomever, goes through the same states
with the same calls in the same order, and comes to the same ends. -/
theorem gate_exact (behave : Callback → Payload → Script σ) {s : State σ}
    (hs : s.world.registry.Reachable) :
    (∀ e, (s.world.registry.isArmed e = true ↔
          ∃ t, (s.world.registry.slot t).inUse = true ∧
            ((s.world.registry.slot t).globalEvents.has e.gate = true ∨
              ∃ code, ((s.world.registry.slot t).localSet code).has e.gate = true)) ∧
        (s.world.registry.isArmed e = true ↔
          e.gate ∈ s.world.registry.allEvents.map Prod.fst)) ∧
      (∀ t site c, s.world.registry.target? t site = some c →
        s.world.registry.isArmed site.event = true) ∧
      (∀ n, ∃ k, n ≤ k ∧ (ungated behave).states s k = (Machine.of behave).states s n ∧
        (ungated behave).invocations s k = (Machine.of behave).invocations s n) ∧
      ∀ s', s'.isOver = true →
        ((∃ n, (Machine.of behave).states s n = s') ↔ ∃ k, (ungated behave).states s k = s') := by
  have hfollows : ∀ n, ∃ k, n ≤ k ∧
      (ungated behave).states s k = (Machine.of behave).states s n ∧
      (ungated behave).invocations s k = (Machine.of behave).invocations s n := fun n => by
    obtain ⟨k, hnk, hstates, hcalls⟩ := ungated_leads behave hs n
    exact ⟨k, hnk, hstates, hcalls⟩
  refine ⟨fun e => ⟨?_, ?_⟩, fun t site c htarget => ?_, hfollows, fun s' hover => ⟨?_, ?_⟩⟩
  · rw [hs.isArmed_iff]
    refine exists_congr fun t => ?_
    exact ⟨fun he => ⟨hs.inUse_of_arms he, he⟩, And.right⟩
  · rw [hs.isArmed_iff, Registry.mem_allEvents]
  · exact hs.isArmed_of_effective (Registry.target?_eq_some.1 htarget).1
  · rintro ⟨n, rfl⟩
    obtain ⟨k, -, hstates, -⟩ := hfollows n
    exact ⟨k, hstates⟩
  · rintro ⟨n, rfl⟩
    -- after as many steps with the gate, the machine without it is in a state behind the end
    obtain ⟨k, hnk, hstates, -⟩ := hfollows n
    obtain ⟨i, rfl⟩ := Nat.exists_eq_add_of_le' hnk
    rw [states_add, states_of_isOver hover] at hstates
    exact ⟨n, hstates.symm⟩

/-- An instruction is reported that nobody has armed, and then a line, while the callbacks give
back each other's slots. -/
def twoReports : Script Unit :=
  .fire ⟨.instruction, .foreign 7 "unit" 1, 4, .instruction⟩ fun _ => lineReport

/-- Without the gate the same two tools are let through to, and the report of the instruction is
opened for nobody. -/
theorem rivals_gate_exact :
    rivals.Reachable ∧
      (rivals.isArmed .line = true ↔ Event.line.gate ∈ rivals.allEvents.map Prod.fst) ∧
      ∃ k, 6 ≤ k ∧
        (ungated rivalry).states (.initial ⟨rivals, .empty, ()⟩ twoReports) k =
          (Machine.of rivalry).states (.initial ⟨rivals, .empty, ()⟩ twoReports) 6 := by
  have hrivals : rivals.Reachable := Registry.reachable_operated _
  obtain ⟨hevents, -, hfollows, -⟩ :=
    gate_exact rivalry (s := .initial ⟨rivals, .empty, ()⟩ twoReports) hrivals
  obtain ⟨k, hk, hstates, -⟩ := hfollows 6
  exact ⟨hrivals, (hevents .line).2, k, hk, hstates⟩

end Machine

end Tracepoint
