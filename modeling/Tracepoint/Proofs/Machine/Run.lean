/-
**Runs of the machine.**

A run is the sequence of states that the machine goes through.  Three things about a run can be
read off its states without looking at the scripts that are run: how the registry changes, which
dispatches are under way, and which callbacks are running.  This module says what one step does to
each of them.

Main definitions:

* `Tracepoint.Machine.states` — the states of a run;
* `Tracepoint.State.change?` — how the next step changes the registry;
* `Tracepoint.State.dispatches` — the dispatches under way;
* `Tracepoint.State.fired?` — the report that the next step hands in;
* `Tracepoint.Machine.Calls` — **a step calls a callback**, which runs from then on;
* `Tracepoint.Machine.invocation?` — the callback that the next step calls, as it is found on the
  pile;
* `Tracepoint.Machine.Picks` — a dispatch has chosen a callback;
* `Tracepoint.Machine.RunsSince` — when a callback that runs was called.

Main results:

* `Tracepoint.Machine.registry_advance` — **nothing else changes the registry**;
* `Tracepoint.Machine.mem_dispatches_advance` — a dispatch is opened in the present registry or
  goes on;
* `Tracepoint.Machine.levels_advance` — callbacks begin and end one at a time;
* `Tracepoint.Machine.invocation?_eq_some_iff` — **what is found on the pile is what is called**;
* `Tracepoint.Machine.exists_runsSince` — **every callback that runs was called** and has been
  running ever since.
-/

import Mathlib.Logic.Function.Iterate
import Tracepoint.Machine
import Tracepoint.Proofs.Registry.Change

set_option relaxedAutoImplicit false
set_option autoImplicit false

namespace Tracepoint

variable {σ : Type}

/-! ### States of a run -/

/-- **The state after `n` steps.** -/
def Machine.states (m : Machine σ) (s : State σ) (n : ℕ) : State σ := m.advance^[n] s

namespace Machine

@[simp] theorem states_zero (m : Machine σ) (s : State σ) : m.states s 0 = s := rfl

theorem states_succ (m : Machine σ) (s : State σ) (n : ℕ) :
    m.states s (n + 1) = m.advance (m.states s n) :=
  Function.iterate_succ_apply' ..

theorem states_succ' (m : Machine σ) (s : State σ) (n : ℕ) :
    m.states s (n + 1) = m.states (m.advance s) n :=
  Function.iterate_succ_apply ..

theorem states_add (m : Machine σ) (s : State σ) (k n : ℕ) :
    m.states s (k + n) = m.states (m.states s n) k :=
  Function.iterate_add_apply ..

/-- When nothing is left to do, nothing happens any more. -/
theorem states_of_isOver {m : Machine σ} {s : State σ} (h : s.isOver = true) (n : ℕ) :
    m.states s n = s := by
  have hfixed : m.advance s = s := by
    unfold State.isOver at h
    split at h
    · rename_i hf hl
      obtain ⟨w, levels, focus⟩ := s
      obtain rfl : levels = [] := hl
      obtain rfl : focus = _ := hf
      rfl
    · cases h
  exact Function.iterate_fixed hfixed n

/-- What every step preserves holds in all states of a run. -/
theorem states_invariant {m : Machine σ} {P : State σ → Prop} (hstep : ∀ s, P s → P (m.advance s))
    {s : State σ} (hs : P s) (n : ℕ) : P (m.states s n) :=
  Function.Iterate.rec P hs hstep n

end Machine

/-! ### What can be read off a state -/

namespace State

/-- How the next step changes the registry, if it does. -/
def change? (s : State σ) : Option Change :=
  match s.focus, s.levels with
  | .script (.operate op _), _ => some (.operate op)
  | .script (.answer (.ok .disable)), level :: _ =>
      some (.disable level.tool level.dispatch.occurrence.site)
  | _, _ => none

/-- The dispatches under way, the innermost first. -/
def dispatches (s : State σ) : List Dispatch :=
  match s.focus with
  | .dispatch d _ => d :: s.levels.map Level.dispatch
  | _ => s.levels.map Level.dispatch

/-- The report that the next step hands in, by running code or by a script. -/
def fired? (s : State σ) : Option Occurrence :=
  match s.focus with
  | .thread (.reporting _ o _) _ => some o
  | .script (.fire o _) => some o
  | _ => none

@[simp] theorem registry_follow (w : World σ) (levels : List (Level σ))
    (go : Heap → Heap × Activity) (k : Except Exception Value → Script σ) :
    (follow w levels go k).world.registry = w.registry := rfl

@[simp] theorem levels_follow (w : World σ) (levels : List (Level σ))
    (go : Heap → Heap × Activity) (k : Except Exception Value → Script σ) :
    (follow w levels go k).levels = levels := rfl

@[simp] theorem dispatches_follow (w : World σ) (levels : List (Level σ))
    (go : Heap → Heap × Activity) (k : Except Exception Value → Script σ) :
    (follow w levels go k).dispatches = levels.map Level.dispatch := rfl

@[simp] theorem registry_wake (w : World σ) (levels : List (Level σ)) (waiter : Waiter σ)
    (r : Except Exception Unit) : (wake w levels waiter r).world.registry = w.registry := by
  cases waiter <;> rfl

@[simp] theorem levels_wake (w : World σ) (levels : List (Level σ)) (waiter : Waiter σ)
    (r : Except Exception Unit) : (wake w levels waiter r).levels = levels := by
  cases waiter <;> rfl

@[simp] theorem dispatches_wake (w : World σ) (levels : List (Level σ)) (waiter : Waiter σ)
    (r : Except Exception Unit) :
    (wake w levels waiter r).dispatches = levels.map Level.dispatch := by
  cases waiter <;> rfl

end State

/-- A callback that is called, with what it is told. -/
structure Invocation where
  tool : Tool
  callback : Callback
  occurrence : Occurrence

/-- What a callback that runs was called with. -/
def Level.invocation (level : Level σ) : Invocation :=
  ⟨level.tool, level.callback, level.dispatch.occurrence⟩

namespace Machine

/-- **A step calls a callback**: it puts the callback on the pile, above those that run already,
and from then on there runs what the callback does with the payload. -/
def Calls (m : Machine σ) (s : State σ) (call : Invocation) : Prop :=
  ∃ level : Level σ, level.invocation = call ∧
    m.advance s =
      ⟨s.world, level :: s.levels, .script (m.behave call.callback call.occurrence.payload)⟩

/-- The callback that the next step calls: the one that is on the pile after the step and was not
before. -/
def invocation? (m : Machine σ) (s : State σ) : Option Invocation :=
  if s.levels.length < (m.advance s).levels.length then
    (m.advance s).levels.head?.map Level.invocation
  else none

theorem invocation?_eq_none {m : Machine σ} {s : State σ}
    (h : (m.advance s).levels.length ≤ s.levels.length) : m.invocation? s = none :=
  if_neg (Nat.not_lt.2 h)

/-- If the pile stays as it is, no callback is called. -/
theorem invocation?_of_levels {m : Machine σ} {s : State σ} (h : (m.advance s).levels = s.levels) :
    m.invocation? s = none :=
  invocation?_eq_none (Nat.le_of_eq (congrArg List.length h))

theorem Calls.invocation?_eq {m : Machine σ} {s : State σ} {call : Invocation}
    (h : m.Calls s call) : m.invocation? s = some call := by
  obtain ⟨level, hcall, hadvance⟩ := h
  rw [invocation?, hadvance, ← hcall]
  exact if_pos (Nat.lt_succ_self _)

theorem invocation?_of_isOver (m : Machine σ) {s : State σ} (h : s.isOver = true) :
    m.invocation? s = none := by
  have hfixed : m.advance s = s := states_of_isOver h 1
  exact invocation?_of_levels (by rw [hfixed])

/-! ### One step -/

@[simp] theorem registry_openDispatch (m : Machine σ) (w : World σ) (levels : List (Level σ))
    (o : Occurrence) (waiter : Waiter σ) :
    (m.openDispatch w levels o waiter).world.registry = w.registry := by
  unfold openDispatch
  split <;> simp

@[simp] theorem levels_openDispatch (m : Machine σ) (w : World σ) (levels : List (Level σ))
    (o : Occurrence) (waiter : Waiter σ) : (m.openDispatch w levels o waiter).levels = levels := by
  unfold openDispatch
  split <;> simp

section Dispatch

variable {m : Machine σ} {w : World σ} {levels : List (Level σ)} {d : Dispatch}
  {waiter : Waiter σ} {tool : Tool} {snapshot callback : Callback}
  {rest : List (Tool × Callback)}

theorem advanceDispatch_nil (hp : d.pending = []) :
    m.advanceDispatch w levels d waiter = State.wake w levels waiter (.ok ()) := by
  simp only [advanceDispatch, hp]

theorem advanceDispatch_none (hp : d.pending = (tool, snapshot) :: rest)
    (hc : m.policy.choose w.registry d tool snapshot = none) :
    m.advanceDispatch w levels d waiter =
      ⟨w, levels, .dispatch { d with pending := rest } waiter⟩ := by
  simp only [advanceDispatch, hp, hc]

/-- A tool whose callback takes another shape is passed over. -/
theorem advanceDispatch_mismatch (hp : d.pending = (tool, snapshot) :: rest)
    (hc : m.policy.choose w.registry d tool snapshot = some callback)
    (hs : callback.shape ≠ d.occurrence.payload.shape) :
    m.advanceDispatch w levels d waiter =
      ⟨w, levels, .dispatch { d with pending := rest } waiter⟩ := by
  simp only [advanceDispatch, hp, hc, if_neg hs]

/-- A tool that is chosen is called. -/
theorem advanceDispatch_some (hp : d.pending = (tool, snapshot) :: rest)
    (hc : m.policy.choose w.registry d tool snapshot = some callback)
    (hs : callback.shape = d.occurrence.payload.shape) :
    m.advanceDispatch w levels d waiter =
      ⟨w, ⟨tool, callback, { d with pending := rest }, waiter⟩ :: levels,
        .script (m.behave callback d.occurrence.payload)⟩ := by
  simp only [advanceDispatch, hp, hc, if_pos hs]

theorem invocation?_of_nil (hp : d.pending = []) :
    m.invocation? ⟨w, levels, .dispatch d waiter⟩ = none :=
  invocation?_of_levels (by rw [advance, advanceDispatch_nil hp, State.levels_wake])

theorem invocation?_of_none (hp : d.pending = (tool, snapshot) :: rest)
    (hc : m.policy.choose w.registry d tool snapshot = none) :
    m.invocation? ⟨w, levels, .dispatch d waiter⟩ = none :=
  invocation?_of_levels (by rw [advance, advanceDispatch_none hp hc])

theorem invocation?_of_mismatch (hp : d.pending = (tool, snapshot) :: rest)
    (hc : m.policy.choose w.registry d tool snapshot = some callback)
    (hs : callback.shape ≠ d.occurrence.payload.shape) :
    m.invocation? ⟨w, levels, .dispatch d waiter⟩ = none :=
  invocation?_of_levels (by rw [advance, advanceDispatch_mismatch hp hc hs])

/-- **The tool that is chosen is called**, and its callback does what it does with the payload. -/
theorem calls_of_choose (hp : d.pending = (tool, snapshot) :: rest)
    (hc : m.policy.choose w.registry d tool snapshot = some callback)
    (hs : callback.shape = d.occurrence.payload.shape) :
    m.Calls ⟨w, levels, .dispatch d waiter⟩ ⟨tool, callback, d.occurrence⟩ :=
  ⟨⟨tool, callback, { d with pending := rest }, waiter⟩, rfl, advanceDispatch_some hp hc hs⟩

/-- A dispatch is over, or it goes on with the tools behind the next one, which is passed over or
called: then it was chosen and takes the payload. -/
theorem advanceDispatch_cases (m : Machine σ) (w : World σ) (levels : List (Level σ))
    (d : Dispatch) (waiter : Waiter σ) :
    m.advanceDispatch w levels d waiter = State.wake w levels waiter (.ok ()) ∨
      ∃ tool snapshot rest, d.pending = (tool, snapshot) :: rest ∧
        (m.advanceDispatch w levels d waiter =
            ⟨w, levels, .dispatch { d with pending := rest } waiter⟩ ∨
          ∃ callback, m.policy.choose w.registry d tool snapshot = some callback ∧
            callback.shape = d.occurrence.payload.shape ∧
            m.advanceDispatch w levels d waiter =
              ⟨w, ⟨tool, callback, { d with pending := rest }, waiter⟩ :: levels,
                .script (m.behave callback d.occurrence.payload)⟩) := by
  cases hp : d.pending with
  | nil => exact Or.inl (advanceDispatch_nil hp)
  | cons head rest =>
      obtain ⟨tool, snapshot⟩ := head
      refine Or.inr ⟨tool, snapshot, rest, rfl, ?_⟩
      cases hc : m.policy.choose w.registry d tool snapshot with
      | none => exact Or.inl (advanceDispatch_none hp hc)
      | some callback =>
          by_cases hs : callback.shape = d.occurrence.payload.shape
          · exact Or.inr ⟨callback, rfl, hs, advanceDispatch_some hp hc hs⟩
          · exact Or.inl (advanceDispatch_mismatch hp hc hs)

end Dispatch

@[simp] theorem registry_advanceDispatch (m : Machine σ) (w : World σ) (levels : List (Level σ))
    (d : Dispatch) (waiter : Waiter σ) :
    (m.advanceDispatch w levels d waiter).world.registry = w.registry := by
  rcases m.advanceDispatch_cases w levels d waiter with h | ⟨_, _, _, _, h | ⟨_, _, _, h⟩⟩ <;>
    simp [h]

/-- **Nothing but the change of a state changes the registry.** -/
theorem registry_advance (m : Machine σ) (s : State σ) :
    (m.advance s).world.registry =
      s.change?.elim s.world.registry s.world.registry.after := by
  obtain ⟨w, levels, focus⟩ := s
  cases focus with
  | script script =>
      cases script with
      | answer a =>
          cases levels with
          | nil => simp [advance, advanceScript, State.change?]
          | cons level rest =>
              cases a with
              | error fault => simp [advance, advanceScript, advanceAnswer, State.change?]
              | ok action => cases action <;> rfl
      | fire o k => simp [advance, advanceScript, State.change?]
      | _ => rfl
  | dispatch d waiter => simp [advance, State.change?]
  | thread a k => cases a <;> simp [advance, State.change?]

/-- The registries of a run can be reached if the first one can. -/
theorem reachable_states (m : Machine σ) {s : State σ} (h : s.world.registry.Reachable) (n : ℕ) :
    (m.states s n).world.registry.Reachable := by
  refine states_invariant (P := fun s => s.world.registry.Reachable) (fun s hs => ?_) h n
  rw [m.registry_advance]
  cases s.change? with
  | none => exact hs
  | some c => exact hs.after c

end Machine

/-- A dispatch is what is left of another one. -/
structure Dispatch.IsRest (d whole : Dispatch) : Prop where
  occurrence : d.occurrence = whole.occurrence
  version : d.version = whole.version
  pending : d.pending <:+ whole.pending

theorem Dispatch.IsRest.refl (d : Dispatch) : d.IsRest d := ⟨rfl, rfl, List.suffix_rfl⟩

namespace Machine

/-- The dispatches under way are those from before, or what is left of them, and that of a report
that is handed in, which is opened in the present registry. -/
theorem mem_dispatches_advance {m : Machine σ} {s : State σ} {d : Dispatch}
    (h : d ∈ (m.advance s).dispatches) :
    (∃ whole ∈ s.dispatches, d.IsRest whole) ∨
      (s.change? = none ∧ ∃ o, s.fired? = some o ∧ d = s.world.registry.dispatch o) := by
  have kept : ∀ {w : World σ} {levels : List (Level σ)} {focus : Focus σ},
      d ∈ levels.map Level.dispatch →
      ∃ whole ∈ (⟨w, levels, focus⟩ : State σ).dispatches, d.IsRest whole := by
    intro w levels focus hd
    refine ⟨d, ?_, .refl d⟩
    cases focus <;> simp_all [State.dispatches]
  have opened : ∀ {w : World σ} {levels : List (Level σ)} {focus : Focus σ} {o : Occurrence}
      {waiter : Waiter σ}, (⟨w, levels, focus⟩ : State σ).change? = none →
      (⟨w, levels, focus⟩ : State σ).fired? = some o →
      d ∈ (m.openDispatch w levels o waiter).dispatches →
      (∃ whole ∈ (⟨w, levels, focus⟩ : State σ).dispatches, d.IsRest whole) ∨
        ((⟨w, levels, focus⟩ : State σ).change? = none ∧
          ∃ o, (⟨w, levels, focus⟩ : State σ).fired? = some o ∧ d = w.registry.dispatch o) := by
    intro w levels focus o waiter hc ho hd
    unfold openDispatch at hd
    split at hd
    · rcases List.mem_cons.1 hd with rfl | hd
      · exact Or.inr ⟨hc, o, ho, rfl⟩
      · exact Or.inl (kept hd)
    · rw [State.dispatches_wake] at hd
      exact Or.inl (kept hd)
  obtain ⟨w, levels, focus⟩ := s
  cases focus with
  | script script =>
      cases script with
      | fire o k => exact opened rfl rfl h
      | answer a =>
          cases levels with
          | nil => simp [advance, advanceScript, State.dispatches] at h
          | cons level rest =>
              refine Or.inl ⟨d, ?_, .refl d⟩
              cases a with
              | error fault =>
                  simp only [advance, advanceScript, advanceAnswer, State.dispatches_wake] at h
                  exact List.mem_cons_of_mem _ h
              | ok action => cases action <;> exact h
      | _ => exact Or.inl (kept h)
  | dispatch d₀ waiter =>
      left
      rw [advance] at h
      rcases m.advanceDispatch_cases w levels d₀ waiter with he | ⟨_, _, rest, hp, he⟩
      · rw [he, State.dispatches_wake] at h
        exact kept h
      -- the dispatch goes on without its next tool, at the focus or below the callback called
      · have hrest : ({ d₀ with pending := rest } : Dispatch).IsRest d₀ :=
          ⟨rfl, rfl, by rw [hp]; exact List.suffix_cons ..⟩
        have hd : d ∈ ({ d₀ with pending := rest } : Dispatch) :: levels.map Level.dispatch := by
          rcases he with he | ⟨_, -, -, he⟩
          · rwa [he] at h
          · rwa [he] at h
        rcases List.mem_cons.1 hd with rfl | hd
        · exact ⟨d₀, List.mem_cons_self .., hrest⟩
        · exact ⟨d, List.mem_cons_of_mem _ hd, .refl d⟩
  | thread a k =>
      cases a with
      | finished r => exact Or.inl (kept h)
      | reporting t o j => exact opened rfl rfl h

/-- **A callback is picked**: a dispatch has chosen it for the tool that is next, and it takes what
the dispatch tells. -/
def Picks (m : Machine σ) (s : State σ) (call : Invocation) : Prop :=
  ∃ d waiter, s.focus = .dispatch d waiter ∧ ∃ snapshot rest,
    d.pending = (call.tool, snapshot) :: rest ∧
    m.policy.choose s.world.registry d call.tool snapshot = some call.callback ∧
    d.occurrence = call.occurrence ∧ call.callback.shape = d.occurrence.payload.shape

theorem Picks.calls {m : Machine σ} {s : State σ} {call : Invocation} (h : m.Picks s call) :
    m.Calls s call := by
  obtain ⟨w, levels, focus⟩ := s
  obtain ⟨tool, callback, o⟩ := call
  obtain ⟨d, waiter, rfl, snapshot, rest, hp, hc, rfl, hs⟩ := h
  exact calls_of_choose hp hc hs

/-- Callbacks begin and end one at a time, and each that begins was picked. -/
theorem levels_advance (m : Machine σ) (s : State σ) :
    (m.advance s).levels = s.levels ∨
      (∃ level, s.levels = level :: (m.advance s).levels) ∨
      ∃ level, (m.advance s).levels = level :: s.levels ∧ m.Picks s level.invocation := by
  obtain ⟨w, levels, focus⟩ := s
  cases focus with
  | script script =>
      cases script with
      | fire o k => exact Or.inl (levels_openDispatch ..)
      | answer a =>
          cases levels with
          | nil => exact Or.inl rfl
          | cons level rest =>
              refine Or.inr (Or.inl ⟨level, ?_⟩)
              cases a with
              | error fault => simp [advance, advanceScript, advanceAnswer]
              | ok action => cases action <;> rfl
      | _ => exact Or.inl rfl
  | dispatch d waiter =>
      rcases m.advanceDispatch_cases w levels d waiter with
        he | ⟨tool, snapshot, rest, hp, he | ⟨callback, hc, hs, he⟩⟩
      · exact Or.inl (by rw [advance, he, State.levels_wake])
      · exact Or.inl (by rw [advance, he])
      · exact Or.inr (Or.inr ⟨_, congrArg State.levels he,
          d, waiter, rfl, snapshot, rest, hp, hc, rfl, hs⟩)
  | thread a k =>
      cases a with
      | finished r => exact Or.inl rfl
      | reporting t o j => exact Or.inl (levels_openDispatch ..)

/-- Who is found on the pile was picked. -/
theorem picks_of_invocation? {m : Machine σ} {s : State σ} {call : Invocation}
    (h : m.invocation? s = some call) : m.Picks s call := by
  rcases m.levels_advance s with he | ⟨level, he⟩ | ⟨level, -, hpicks⟩
  · rw [invocation?_of_levels he] at h
    cases h
  · rw [invocation?_eq_none (by rw [he]; exact Nat.le_succ _)] at h
    cases h
  · rw [hpicks.calls.invocation?_eq] at h
    cases h
    exact hpicks

/-- **What is found on the pile is what is called**: it is a callback that has been put there by the
step, and what runs is what it does with the payload. -/
theorem invocation?_eq_some_iff {m : Machine σ} {s : State σ} {call : Invocation} :
    m.invocation? s = some call ↔ m.Calls s call :=
  ⟨fun h => (picks_of_invocation? h).calls, Calls.invocation?_eq⟩

/-- Nobody is called but by a dispatch. -/
theorem invocation?_of_focus {m : Machine σ} {s : State σ}
    (h : ∀ d waiter, s.focus ≠ .dispatch d waiter) : m.invocation? s = none := by
  cases hcall : m.invocation? s with
  | none => rfl
  | some call =>
      obtain ⟨d, waiter, hfocus, -⟩ := picks_of_invocation? hcall
      exact absurd hfocus (h d waiter)

@[simp] theorem invocation?_script (m : Machine σ) (w : World σ) (levels : List (Level σ))
    (script : Script σ) : m.invocation? ⟨w, levels, .script script⟩ = none :=
  invocation?_of_focus fun _ _ => by simp

@[simp] theorem invocation?_thread (m : Machine σ) (w : World σ) (levels : List (Level σ))
    (a : Activity) (k : Except Exception Value → Script σ) :
    m.invocation? ⟨w, levels, .thread a k⟩ = none :=
  invocation?_of_focus fun _ _ => by simp

/-! ### The callbacks that run -/

/-- A callback is called at step `k`, above the callbacks of `rest`, and runs from then on up to
step `n`. -/
structure RunsSince (m : Machine σ) (s : State σ) (k n : ℕ) (level : Level σ)
    (rest : List (Level σ)) : Prop where
  lt : k < n
  called : m.Calls (m.states s k) level.invocation
  below : (m.states s k).levels = rest
  running : ∀ j, k < j → j ≤ n → level :: rest <:+ (m.states s j).levels

theorem RunsSince.succ {m : Machine σ} {s : State σ} {k n : ℕ} {level : Level σ}
    {rest : List (Level σ)} (h : m.RunsSince s k n level rest)
    (hn : level :: rest <:+ (m.states s (n + 1)).levels) :
    m.RunsSince s k (n + 1) level rest := by
  refine ⟨by have := h.lt; omega, h.called, h.below, fun j hkj hj => ?_⟩
  rcases Nat.lt_or_ge j (n + 1) with hlt | hge
  · exact h.running j hkj (by omega)
  · have : j = n + 1 := by omega
    rw [this]
    exact hn

/-- **Every callback that runs was called**, and it has been running ever since. -/
theorem exists_runsSince {m : Machine σ} {s : State σ} (hs : s.levels = []) {n : ℕ}
    {level : Level σ} {rest : List (Level σ)} (h : level :: rest <:+ (m.states s n).levels) :
    ∃ k, m.RunsSince s k n level rest := by
  induction n with
  | zero => simp [hs] at h
  | succ n ih =>
      have old : level :: rest <:+ (m.states s n).levels →
          ∃ k, m.RunsSince s k (n + 1) level rest := fun hn => by
        obtain ⟨k, hk⟩ := ih hn
        exact ⟨k, hk.succ h⟩
      have h' := h
      rw [states_succ] at h'
      -- the callback was running before this step, or it is the one that the step calls
      rcases m.levels_advance (m.states s n) with hl | ⟨l, hl⟩ | ⟨l, hl, hpicks⟩
      · rw [hl] at h'
        exact old h'
      · exact old (by rw [hl]; exact h'.trans (List.suffix_cons ..))
      · rw [hl, List.suffix_cons_iff] at h'
        rcases h' with heq | hn
        · obtain ⟨rfl, hrest⟩ := List.cons.inj heq
          refine ⟨n, by omega, hpicks.calls, hrest.symm, fun j hnj hj => ?_⟩
          have : j = n + 1 := by omega
          rw [this]
          exact h
        · exact old hn

end Machine

end Tracepoint
