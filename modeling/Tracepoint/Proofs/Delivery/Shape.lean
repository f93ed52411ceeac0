/-
**No delivery is skipped for its shape.**

A callback takes payloads of one shape, and a dispatch passes over a callback that takes another one
than it has to tell.  Nobody should ever notice that.  A callback is registered for an event only if
it takes what the event tells, and whatever is done to the registry while a dispatch is under way,
who is chosen is registered for the event at that moment.  Running code for its part tells what
belongs to the event, at each of its junctures.  So a callback can be passed over for its shape only
if a script has made a report of its own with a payload of another event.

Main definitions:

* `Tracepoint.Occurrence.Proper` — a payload that belongs to the event;
* `Tracepoint.Machine.Chooses` — the callback that a dispatch has chosen next;
* `Tracepoint.Machine.DeliversByShape` — **nothing is skipped for its shape**, in a run.

Main results:

* `Tracepoint.Machine.Chooses.shape_eq` — a callback that is chosen takes what the event tells;
* `Tracepoint.Machine.proper_of_reporting` — what running code reports is proper;
* `Tracepoint.Machine.proper_or_fired` — where an improper dispatch comes from;
* `Tracepoint.Machine.no_delivery_skipped` — **nothing is skipped for its shape**, in every run.
-/

import Tracepoint.Proofs.Control.Entry
import Tracepoint.Proofs.Delivery.Projection
import Tracepoint.Proofs.Delivery.Snapshot
import Tracepoint.Proofs.Registry.Tidiness

set_option relaxedAutoImplicit false
set_option autoImplicit false

namespace Tracepoint

variable {σ : Type}

/-- **What is told belongs to the event.** -/
def Occurrence.Proper (o : Occurrence) : Prop := o.payload.shape = o.event.shape

namespace Machine

/-! ### Who is chosen -/

/-- **The callback that a dispatch has chosen** for the tool that is next. -/
structure Chooses (m : Machine σ) (s : State σ) (d : Dispatch) (waiter : Waiter σ) (tool : Tool)
    (c : Callback) : Prop where
  focus : s.focus = .dispatch d waiter
  chosen : ∃ snapshot rest, d.pending = (tool, snapshot) :: rest ∧
    m.policy.choose s.world.registry d tool snapshot = some c

section Choosing

variable {m : Machine σ} {s : State σ} {d : Dispatch} {waiter : Waiter σ} {tool : Tool}
  {c : Callback}

/-- Who is chosen is called if the callback takes what is told. -/
theorem Chooses.invocation?_eq (h : m.Chooses s d waiter tool c) :
    m.invocation? s =
      if c.shape = d.occurrence.payload.shape then some ⟨tool, c, d.occurrence⟩ else none := by
  obtain ⟨snapshot, rest, hp, hc⟩ := h.chosen
  obtain ⟨w, levels, focus⟩ := s
  obtain rfl : focus = .dispatch d waiter := h.focus
  split
  · rename_i hs
    exact (calls_of_choose hp hc hs).invocation?_eq
  · rename_i hs
    exact invocation?_of_mismatch hp hc hs

/-- Who is called was chosen, and takes what is told. -/
theorem exists_chooses {call : Invocation} (h : m.invocation? s = some call) :
    ∃ d waiter, m.Chooses s d waiter call.tool call.callback ∧ d.occurrence = call.occurrence ∧
      call.callback.shape = d.occurrence.payload.shape := by
  obtain ⟨d, waiter, hf, snapshot, rest, hp, hc, hd, hs⟩ := picks_of_invocation? h
  exact ⟨d, waiter, ⟨hf, snapshot, rest, hp, hc⟩, hd, hs⟩

/-- **A callback that is chosen takes what the event tells**, whatever has been done to the registry
since the dispatch was opened: it is the one that is registered for the event. -/
theorem Chooses.shape_eq {behave : Callback → Payload → Script σ}
    (h : (Machine.of behave).Chooses s d waiter tool c) (hs : s.Faithful)
    (hr : s.world.registry.Reachable) : c.shape = d.occurrence.event.shape := by
  obtain ⟨snapshot, rest, hp, hc⟩ := h.chosen
  have hd : d ∈ s.dispatches := by simp [State.dispatches, h.focus]
  have hnext : (tool, snapshot) ∈ d.pending := by simp [hp]
  have htarget : s.world.registry.target? tool d.occurrence.site = some c := by
    rw [← (hs d hd).choose_eq hnext]
    exact hc
  obtain ⟨-, -, hregistered⟩ := Registry.target?_eq_some.1 htarget
  exact (hr.tidy tool).shape d.occurrence.event c hregistered

end Choosing

/-! ### What is told -/

/-- **What running code reports is proper**, as long as anybody may be told of it. -/
theorem proper_of_reporting (m : Machine σ) (w : World σ) (script : Script σ) {n : ℕ} {t : Thread}
    {o : Occurrence} {j : Juncture}
    (h : (m.states (.initial w script) n).focus.activity? = some (.reporting t o j)) :
    o.Proper := by
  have hmem : .reporting t o j ∈ (m.states (.initial w script) n).activities := by
    simp [State.activities, h]
  exact ((m.history_states w script n).reports t o j hmem).1.tells.shape_eq

/-- What is reported in a state is reported by the thread that runs. -/
theorem exists_reporting {s : State σ} {o : Occurrence} (h : s.occurrence? = some o) :
    ∃ t j, s.focus.activity? = some (.reporting t o j) := by
  unfold State.occurrence? at h
  split at h
  · rename_i t _ j k hf
    cases h
    exact ⟨t, j, by rw [hf]; rfl⟩
  · cases h

/-- A script has made this report before step `n`. -/
def FiredBefore (m : Machine σ) (s : State σ) (n : ℕ) (o : Occurrence) : Prop :=
  ∃ i < n, ∃ k, (m.states s i).focus = .script (.fire o k)

/-- **An improper dispatch is that of a script's own report.** -/
theorem proper_or_fired (m : Machine σ) (w : World σ) (script : Script σ) {n : ℕ} {d : Dispatch}
    (hd : d ∈ (m.states (.initial w script) n).dispatches) :
    d.occurrence.Proper ∨ m.FiredBefore (.initial w script) n d.occurrence := by
  induction n generalizing d with
  | zero => cases hd
  | succ n ih =>
      rw [states_succ] at hd
      rcases mem_dispatches_advance hd with ⟨whole, hwhole, hrest⟩ | ⟨-, o, ho, rfl⟩
      · rw [hrest.occurrence]
        refine (ih hwhole).imp_right ?_
        rintro ⟨i, hi, hfired⟩
        exact ⟨i, Nat.lt_succ_of_lt hi, hfired⟩
      -- a report that is handed in, by running code or by a script
      · unfold State.fired? at ho
        split at ho
        · rename_i t _ j k hf
          cases ho
          exact Or.inl (m.proper_of_reporting w script (congrArg Focus.activity? hf))
        · rename_i _ k hf
          cases ho
          exact Or.inr ⟨n, Nat.lt_succ_self n, k, hf⟩
        · cases ho

/-! ### Runs -/

/-- **Nothing is skipped for its shape** in a run: -/
structure DeliversByShape (m : Machine σ) (s : State σ) : Prop where
  /-- what running code reports belongs to the event, -/
  reported : ∀ n o, (m.states s n).occurrence? = some o → o.Proper
  /-- and still does while it waits for the dispatch; -/
  awaited : ∀ n d t j k, (m.states s n).focus = .dispatch d (.thread t j k) → d.occurrence.Proper
  /-- every callback that is called takes what the event tells, and is told that; -/
  called : ∀ n call, m.invocation? (m.states s n) = some call →
    call.callback.shape = call.occurrence.event.shape ∧ call.occurrence.Proper
  /-- every callback that is chosen takes what the event tells; -/
  chosen : ∀ n d waiter tool c, m.Chooses (m.states s n) d waiter tool c →
    c.shape = d.occurrence.event.shape
  /-- **who is chosen while running code waits is called**; -/
  answered : ∀ n d t j k tool c, m.Chooses (m.states s n) d (.thread t j k) tool c →
    m.invocation? (m.states s n) = some ⟨tool, c, d.occurrence⟩
  /-- and so is who is chosen for the report of a script, unless the script has made it with a
  payload that does not belong to the event. -/
  skipped : ∀ n d waiter tool c, m.Chooses (m.states s n) d waiter tool c →
    m.invocation? (m.states s n) = some ⟨tool, c, d.occurrence⟩ ∨
      ¬d.occurrence.Proper ∧ m.FiredBefore s n d.occurrence

section Runs

variable {behave : Callback → Payload → Script σ} {heap : Heap} {memory : σ} {script : Script σ}
  {n : ℕ} {d : Dispatch} {waiter : Waiter σ} {tool : Tool} {c : Callback}

/-- A callback that is chosen in a run takes what the event tells. -/
theorem shape_eq_of_chooses (hc : (Machine.of behave).Chooses
    ((Machine.of behave).states (.initial ⟨.empty, heap, memory⟩ script) n) d waiter tool c) :
    c.shape = d.occurrence.event.shape :=
  hc.shape_eq (faithful_states _ _ script n) (reachable_states _ .empty n)

/-- Who is chosen to be told what belongs to the event is called. -/
theorem invocation?_of_proper (hc : (Machine.of behave).Chooses
    ((Machine.of behave).states (.initial ⟨.empty, heap, memory⟩ script) n) d waiter tool c)
    (hd : d.occurrence.Proper) :
    (Machine.of behave).invocation?
      ((Machine.of behave).states (.initial ⟨.empty, heap, memory⟩ script) n) =
        some ⟨tool, c, d.occurrence⟩ := by
  rw [hc.invocation?_eq, if_pos ((shape_eq_of_chooses hc).trans hd.symm)]

end Runs

/-- **No delivery is skipped for its shape**, in every run from a fresh registry, whatever the
callbacks do to it in the middle of a dispatch. -/
theorem no_delivery_skipped (behave : Callback → Payload → Script σ) (heap : Heap) (memory : σ)
    (script : Script σ) :
    (Machine.of behave).DeliversByShape (.initial ⟨.empty, heap, memory⟩ script) where
  reported n o ho := by
    obtain ⟨t, j, hf⟩ := exists_reporting ho
    exact proper_of_reporting _ _ script hf
  awaited n d t j k hf := proper_of_reporting _ _ script (congrArg Focus.activity? hf)
  called n call hcall := by
    obtain ⟨d, waiter, hc, hd, htakes⟩ := exists_chooses hcall
    have heq := shape_eq_of_chooses hc
    rw [hd] at heq htakes
    exact ⟨heq, htakes.symm.trans heq⟩
  chosen n d waiter tool c hc := shape_eq_of_chooses hc
  answered n d t j k tool c hc :=
    invocation?_of_proper hc (proper_of_reporting _ _ script (congrArg Focus.activity? hc.focus))
  skipped n d waiter tool c hc := by
    by_cases hproper : d.occurrence.Proper
    · exact Or.inl (invocation?_of_proper hc hproper)
    · have hmem : d ∈ ((Machine.of behave).states
          (.initial ⟨.empty, heap, memory⟩ script) n).dispatches := by
        simp [State.dispatches, hc.focus]
      have hfired := (proper_or_fired _ _ script hmem).resolve_left hproper
      exact Or.inr ⟨hproper, hfired⟩

end Machine

end Tracepoint
