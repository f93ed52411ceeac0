/-
**The snapshot of a dispatch is never out of date when it is used.**

A dispatch keeps the callbacks from its beginning and uses them as long as the version of the
registry stays the same.  The plain rule has no snapshot: the registry is asked anew before every
tool.  This module proves that the two rules cannot be told apart: the machine goes through the
same states under both, however the callbacks change the registry and whatever they report
themselves in the meantime.

The invariant is that each dispatch under way, at any depth, is *faithful*: if the version is still
the one from its beginning, then each of its pending tools would be given the very callback of the
snapshot.  A dispatch is faithful when it is opened; it stays so in an unchanged registry; and in a
changed one there is nothing to show, as the version has grown.

Main definitions:

* `Tracepoint.Policy.anew`, `Tracepoint.Machine.anew` — **the plain rule**;
* `Tracepoint.Machine.invocations` — the callbacks that are called in a run, in order;
* `Tracepoint.Dispatch.Faithful` — the invariant.

Main results:

* `Tracepoint.Machine.faithful_states` — all dispatches under way are faithful at all times;
* `Tracepoint.Machine.snapshot_delivers_as_anew` — **the two rules agree**, and who is called has
  a claim to it at that moment.
-/

import Tracepoint.Proofs.Machine.Run
import Tracepoint.Proofs.Registry.Eligible

set_option relaxedAutoImplicit false
set_option autoImplicit false

namespace Tracepoint

variable {σ : Type}

/-! ### The plain rule -/

/-- **The rule without a snapshot**: before each tool the registry is asked anew. -/
def Policy.anew : Policy := ⟨Registry.isArmed, fun r d t _ => r.target? t d.occurrence.site⟩

/-- The machine that follows the plain rule. -/
def Machine.anew (behave : Callback → Payload → Script σ) : Machine σ := ⟨behave, .anew⟩

/-- The callbacks that are called in the first `n` steps, in order. -/
def Machine.invocations (m : Machine σ) (s : State σ) (n : ℕ) : List Invocation :=
  (List.range n).filterMap fun i => m.invocation? (m.states s i)

/-! ### Who has a claim to be called -/

/-- A tool has a claim to be called: its slot has an owner, the callback is registered for the
event, the event is delivered to the tool in the code unit, and it is not disabled at the place. -/
structure Invocation.Rightful (r : Registry) (call : Invocation) : Prop where
  owned : (r.slot call.tool).inUse = true
  registered : (r.slot call.tool).callback? call.occurrence.event = some call.callback
  delivered : ((r.slot call.tool).effective call.occurrence.payload.code).has
    call.occurrence.event = true
  enabled : (r.slot call.tool).isDisabled call.occurrence.site = false

/-! ### Faithful dispatches -/

/-- A dispatch is **faithful** if, as long as the version is the one from its beginning, the
registry would choose each pending tool with the callback of the snapshot. -/
structure Dispatch.Faithful (r : Registry) (d : Dispatch) : Prop where
  version_le : d.version ≤ r.version
  target? : r.version = d.version →
    ∀ t c, (t, c) ∈ d.pending → r.target? t d.occurrence.site = some c

namespace Dispatch

theorem faithful_dispatch (r : Registry) (o : Occurrence) : (r.dispatch o).Faithful r :=
  ⟨Nat.le_refl _, fun _ _ _ h => Registry.mem_targets.1 h⟩

theorem Faithful.rest {r : Registry} {d whole : Dispatch} (h : whole.Faithful r)
    (hd : d.IsRest whole) : d.Faithful r := by
  constructor
  · rw [hd.version]
    exact h.version_le
  · intro hv t c hc
    rw [hd.occurrence]
    exact h.target? (hv.trans hd.version) t c (hd.pending.subset hc)

theorem Faithful.after {r : Registry} {d : Dispatch} (h : d.Faithful r) (c : Change) :
    d.Faithful (r.after c) := by
  rcases r.after_eq_or_lt c with he | hlt
  · rwa [he]
  · have hle := h.version_le
    exact ⟨by omega, fun hv => by omega⟩

/-- **With a faithful dispatch, to trust the snapshot is to ask the registry.** -/
theorem Faithful.choose_eq {r : Registry} {d : Dispatch} (h : d.Faithful r) {t : Tool}
    {c : Callback} (hc : (t, c) ∈ d.pending) : choose r d t c = r.target? t d.occurrence.site := by
  unfold choose
  split
  · rename_i hv
    exact (h.target? hv t c hc).symm
  · rfl

end Dispatch

namespace State

/-- All dispatches under way are faithful. -/
def Faithful (s : State σ) : Prop := ∀ d ∈ s.dispatches, d.Faithful s.world.registry

theorem faithful_initial (w : World σ) (script : Script σ) : (initial w script).Faithful := by
  intro d hd
  cases hd

end State

namespace Machine

theorem faithful_advance (m : Machine σ) {s : State σ} (h : s.Faithful) :
    (m.advance s).Faithful := by
  intro d hd
  rw [m.registry_advance]
  -- a dispatch from before meets a change, while one that is opened meets none
  rcases mem_dispatches_advance hd with ⟨whole, hw, hrest⟩ | ⟨hc, o, -, rfl⟩
  · have hf := (h whole hw).rest hrest
    cases hc : s.change? with
    | none => exact hf
    | some c => exact hf.after c
  · rw [hc]
    exact Dispatch.faithful_dispatch ..

/-- **All dispatches under way are faithful at all times.** -/
theorem faithful_states (m : Machine σ) (w : World σ) (script : Script σ) (n : ℕ) :
    (m.states (.initial w script) n).Faithful :=
  states_invariant (fun _ hs => m.faithful_advance hs) (State.faithful_initial w script) n

/-! ### The two rules agree -/

/-- In a state whose dispatches are faithful the two rules make the same step. -/
theorem advance_anew (behave : Callback → Payload → Script σ) {s : State σ} (h : s.Faithful) :
    (anew behave).advance s = (Machine.of behave).advance s := by
  obtain ⟨w, levels, focus⟩ := s
  cases focus with
  | dispatch d waiter =>
      have hd : d.Faithful w.registry := h d (List.mem_cons_self ..)
      cases hp : d.pending with
      | nil => simp [advance, advanceDispatch, hp]
      | cons head rest =>
          have hc : d.choose w.registry head.1 head.2 =
              w.registry.target? head.1 d.occurrence.site :=
            hd.choose_eq (by rw [hp]; exact List.mem_cons_self ..)
          simp [advance, advanceDispatch, hp, anew, Machine.of, Policy.anew, Policy.snapshot, hc]
  | script script => cases script <;> rfl
  | thread a k => cases a <;> rfl

/-- In a state whose dispatches are faithful the two rules call the same callback. -/
theorem invocation?_anew (behave : Callback → Payload → Script σ) {s : State σ} (h : s.Faithful) :
    (anew behave).invocation? s = (Machine.of behave).invocation? s := by
  rw [invocation?, invocation?, advance_anew behave h]

theorem states_anew (behave : Callback → Payload → Script σ) (w : World σ) (script : Script σ)
    (n : ℕ) :
    (anew behave).states (.initial w script) n =
      (Machine.of behave).states (.initial w script) n := by
  induction n with
  | zero => rfl
  | succ n ih =>
      rw [states_succ, states_succ, ih, advance_anew behave (faithful_states _ w script n)]

/-- A callback that is called is the one that the registry chooses. -/
theorem target?_of_invocation? {behave : Callback → Payload → Script σ} {s : State σ}
    (h : s.Faithful) {call : Invocation} (hc : (Machine.of behave).invocation? s = some call) :
    s.world.registry.target? call.tool call.occurrence.site = some call.callback := by
  rw [← invocation?_anew behave h] at hc
  obtain ⟨d, waiter, -, snapshot, rest, -, hchoose, hd, -⟩ := picks_of_invocation? hc
  rw [← hd]
  exact hchoose

/-- The callbacks that are called have a claim to it at that moment. -/
theorem rightful_of_invocation? {behave : Callback → Payload → Script σ} {s : State σ}
    (hr : s.world.registry.Reachable) (h : s.Faithful) {call : Invocation}
    (hc : (Machine.of behave).invocation? s = some call) : call.Rightful s.world.registry := by
  obtain ⟨heff, hdis, hcb⟩ := Registry.target?_eq_some.1 (target?_of_invocation? h hc)
  exact ⟨hr.inUse_of_callback? hcb, hcb, heff, hdis⟩

/-- **The two rules cannot be told apart.**  From any registry that can be reached and with any
callbacks, whatever script is run — a single report, say — the machine goes through the same
states and calls the same callbacks in the same order as under the plain rule, and each of them
has a claim to be called when it is. -/
theorem snapshot_delivers_as_anew (behave : Callback → Payload → Script σ) {w : World σ}
    (hw : w.registry.Reachable) (script : Script σ) (n : ℕ) :
    (anew behave).states (.initial w script) n =
        (Machine.of behave).states (.initial w script) n ∧
      (anew behave).invocations (.initial w script) n =
        (Machine.of behave).invocations (.initial w script) n ∧
      ∀ call, (Machine.of behave).invocation? ((Machine.of behave).states (.initial w script) n) =
          some call →
        call.Rightful ((Machine.of behave).states (.initial w script) n).world.registry := by
  have hcalls : ∀ i, (anew behave).invocation? ((anew behave).states (.initial w script) i) =
      (Machine.of behave).invocation? ((Machine.of behave).states (.initial w script) i) := by
    intro i
    rw [states_anew]
    exact invocation?_anew behave (faithful_states _ w script i)
  refine ⟨states_anew behave w script n, ?_, fun call hcall => ?_⟩
  · simp only [invocations, hcalls]
  · exact rightful_of_invocation? (reachable_states _ hw n) (faithful_states _ w script n) hcall

def rivals : Registry :=
  .operated [.claim .debugger "first", .register .debugger .line (some ⟨0, .line⟩),
    .setGlobal .debugger (.single .line), .claim .coverage "second",
    .register .coverage .line (some ⟨1, .line⟩), .setGlobal .coverage (.single .line)]

/-- The callback of either of them gives the slot of the other one back. -/
def rivalry : Callback → Payload → Script Unit := fun c _ =>
  .operate (.free (if c.id = 0 then .coverage else .debugger)) fun _ => .answer (.ok .disable)

def lineReport : Script Unit := .fire ⟨.line, .foreign 7 "unit" 1, 4, .line 1⟩ fun _ => .done

/-- After four steps the first tool has been called and the second one, which is still in the
snapshot, is about to be passed over. -/
theorem rivals_deliver_as_anew :
    rivals.Reachable ∧
      (anew rivalry).states (.initial ⟨rivals, .empty, ()⟩ lineReport) 4 =
        (Machine.of rivalry).states (.initial ⟨rivals, .empty, ()⟩ lineReport) 4 :=
  ⟨Registry.reachable_operated _,
    (snapshot_delivers_as_anew rivalry (w := ⟨rivals, .empty, ()⟩)
      (Registry.reachable_operated _) lineReport 4).1⟩

example : ((Machine.of rivalry).invocations
    (.initial ⟨rivals, .empty, ()⟩ lineReport) 8).map (·.tool) = [.debugger] := by decide +kernel

end Machine

end Tracepoint
