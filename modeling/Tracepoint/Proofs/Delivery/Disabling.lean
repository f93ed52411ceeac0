/-
**A disabled site stays silent until it is lifted.**

When a callback asks for no further reports of an event at a place, the site is entered into the
slot of the tool whose callback it is.  From then on, no callback of that tool is called for the
event at the place, nor for the events that accompany it, until the entry is lifted.  It does not
matter how deep callbacks are nested at that moment, nor that dispatches are under way whose
snapshot was taken before.

The disabled sites of a run have a simple history, since one step lemma says all about them: a
site is disabled if it was entered and not lifted since.

Main definitions:

* `Tracepoint.State.Disables`, `Tracepoint.State.Lifts` — the next step enters a site, and lifts
  all sites of a tool;
* `Tracepoint.Machine.Unlifted` — the sites of a tool are not lifted between two moments.

Main results:

* `Tracepoint.Machine.mem_disabled_advance` — what one step does to the disabled sites;
* `Tracepoint.Machine.mem_disabled_states` — **the history of a disabled site**;
* `Tracepoint.Machine.silent_until_lifted` — **what is disabled is not reported until it is
  lifted**.
-/

import Tracepoint.Proofs.Delivery.Snapshot

set_option relaxedAutoImplicit false
set_option autoImplicit false

namespace Tracepoint

variable {σ : Type}

/-! ### One step -/

namespace State

/-- The next step enters a site into the slot of a tool, as the callback of the tool has asked. -/
def Disables (s : State σ) (t : Tool) (site : Site) : Prop := s.change? = some (.disable t site)

/-- The next step is an operation that lifts what is disabled for a tool. -/
def Lifts (s : State σ) (t : Tool) : Prop :=
  ∃ op, s.change? = some (.operate op) ∧ s.world.registry.lifts t op

/-- A site is entered for the callback that runs and the occurrence that it was called for. -/
theorem Disables.exists_level {s : State σ} {t : Tool} {site : Site} (h : s.Disables t site) :
    ∃ level rest, s.levels = level :: rest ∧ level.tool = t ∧
      level.dispatch.occurrence.site = site := by
  unfold Disables change? at h
  split at h
  · cases h
  · rename_i level rest _ hl
    cases h
    exact ⟨level, rest, hl, rfl, rfl⟩
  · cases h

theorem Disables.not_lifts {s : State σ} {t : Tool} {site : Site} (h : s.Disables t site)
    (u : Tool) : ¬ s.Lifts u := by
  rintro ⟨op, hop, -⟩
  rw [Disables, hop] at h
  cases h

end State

namespace Machine

/-- **A step enters a site or keeps the disabled ones, unless it lifts them.** -/
theorem mem_disabled_advance (m : Machine σ) (s : State σ) (t : Tool) (site : Site) :
    site ∈ ((m.advance s).world.registry.slot t).disabled ↔
      s.Disables t site ∨ (site ∈ (s.world.registry.slot t).disabled ∧ ¬ s.Lifts t) := by
  rw [m.registry_advance]
  cases hc : s.change? with
  | none => simp [State.Disables, State.Lifts, hc]
  | some change =>
      cases change with
      | operate op =>
          have hlifts : s.Lifts t ↔ s.world.registry.lifts t op := by
            simp [State.Lifts, hc]
          have hdis : ¬ s.Disables t site := by simp [State.Disables, hc]
          simp only [hlifts, hdis, false_or, Option.elim_some, Registry.after]
          exact Registry.mem_disabled_apply ..
      | disable u entry =>
          have hlifts : ¬ s.Lifts t := State.Disables.not_lifts hc t
          have hdis : s.Disables t site ↔ u = t ∧ entry = site := by
            simp [State.Disables, hc]
          simp only [hdis, hlifts, not_false_eq_true, and_true, Option.elim_some, Registry.after,
            Registry.slot_disable]
          split
          · rename_i hut
            simp only [hut, true_and]
            exact SiteSet.mem_insert
          · rename_i hut
            simp [hut]

/-! ### Histories -/

/-- The sites of a tool are lifted by no step between step `i` and state `n`. -/
def Unlifted (m : Machine σ) (s : State σ) (t : Tool) (i n : ℕ) : Prop :=
  ∀ j, i < j → j < n → ¬ (m.states s j).Lifts t

theorem unlifted_self (m : Machine σ) (s : State σ) (t : Tool) (i : ℕ) :
    m.Unlifted s t i (i + 1) := by
  intro j hij hj
  omega

/-- **A site is disabled exactly if it was entered, or disabled at the beginning, and was not
lifted since.** -/
theorem mem_disabled_states (m : Machine σ) (s : State σ) (t : Tool) (site : Site) (n : ℕ) :
    site ∈ ((m.states s n).world.registry.slot t).disabled ↔
      (site ∈ (s.world.registry.slot t).disabled ∧ ∀ j < n, ¬ (m.states s j).Lifts t) ∨
        ∃ i < n, (m.states s i).Disables t site ∧ m.Unlifted s t i n := by
  induction n with
  | zero => simp
  | succ n ih =>
      rw [states_succ, mem_disabled_advance, ih]
      constructor
      -- step `n` enters the site, or the site has its history from before and is not lifted
      · rintro (hdis | ⟨⟨h₀, hkept⟩ | ⟨i, hin, hi, hkept⟩, hn⟩)
        · exact Or.inr ⟨n, by omega, hdis, m.unlifted_self s t n⟩
        · refine Or.inl ⟨h₀, fun j hj => ?_⟩
          rcases Nat.lt_succ_iff_lt_or_eq.1 hj with hlt | rfl
          · exact hkept j hlt
          · exact hn
        · refine Or.inr ⟨i, by omega, hi, fun j hij hj => ?_⟩
          rcases Nat.lt_succ_iff_lt_or_eq.1 hj with hlt | rfl
          · exact hkept j hij hlt
          · exact hn
      · rintro (⟨h₀, hkept⟩ | ⟨i, hin, hi, hkept⟩)
        · exact Or.inr ⟨Or.inl ⟨h₀, fun j hj => hkept j (by omega)⟩, hkept n (by omega)⟩
        · rcases Nat.lt_succ_iff_lt_or_eq.1 hin with hlt | rfl
          · exact Or.inr ⟨Or.inr ⟨i, hlt, hi, fun j hij hj => hkept j hij (by omega)⟩,
              hkept n hlt (by omega)⟩
          · exact Or.inl hi

/-- **What is disabled is not reported until it is lifted.**  Whatever has happened before and
however deep callbacks are nested, no callback of the tool is called for the event at the place,
nor for an event that accompanies it. -/
theorem silent_until_lifted (behave : Callback → Payload → Script σ) (w : World σ)
    (script : Script σ) {t : Tool} {site : Site} {i n : ℕ} (hin : i < n)
    (hdis : ((Machine.of behave).states (.initial w script) i).Disables t site)
    (hkept : (Machine.of behave).Unlifted (.initial w script) t i n) {call : Invocation}
    (hcall : (Machine.of behave).invocation? ((Machine.of behave).states (.initial w script) n) =
      some call)
    (htool : call.tool = t) : ¬ site.Covers call.occurrence.site := by
  intro hcovers
  have hmem : site ∈ (((Machine.of behave).states (.initial w script) n).world.registry.slot
      t).disabled :=
    (mem_disabled_states ..).2 (Or.inr ⟨i, hin, hdis, hkept⟩)
  have htarget := target?_of_invocation? (faithful_states _ w script n) hcall
  obtain ⟨-, henabled, -⟩ := Registry.target?_eq_some.1 htarget
  rw [htool, Slot.isDisabled_iff.2 ⟨site, hmem, hcovers⟩] at henabled
  cases henabled

def listener : Registry :=
  .operated [.claim .debugger "listener", .register .debugger .line (some ⟨0, .line⟩),
    .register .debugger .instruction (some ⟨1, .instruction⟩),
    .setGlobal .debugger (.single .line ∪ .single .instruction)]

/-- Its callbacks ask for no further reports. -/
def onlyOnce : Callback → Payload → Script Unit := fun _ _ => .answer (.ok .disable)

/-- A line is reported, an instruction at the same place, and the line again. -/
def threeReports : Script Unit :=
  .fire ⟨.line, .foreign 7 "unit" 1, 4, .line 1⟩ fun _ =>
    .fire ⟨.instruction, .foreign 7 "unit" 1, 4, .instruction⟩ fun _ =>
      .fire ⟨.line, .foreign 7 "unit" 1, 4, .line 1⟩ fun _ => .done

/-- The line is disabled in the third step and the instruction is reported in the sixth. -/
theorem listener_silent :
    ((Machine.of onlyOnce).states (.initial ⟨listener, .empty, ()⟩ threeReports) 2).Disables
        .debugger ⟨.line, .foreign 7, 4⟩ ∧
      ∃ call, (Machine.of onlyOnce).invocation? ((Machine.of onlyOnce).states
          (.initial ⟨listener, .empty, ()⟩ threeReports) 5) = some call ∧
        call.tool = .debugger ∧ ¬ (⟨.line, .foreign 7, 4⟩ : Site).Covers call.occurrence.site := by
  have hdis : ((Machine.of onlyOnce).states (.initial ⟨listener, .empty, ()⟩ threeReports)
      2).Disables .debugger ⟨.line, .foreign 7, 4⟩ := rfl
  have hkept : (Machine.of onlyOnce).Unlifted (.initial ⟨listener, .empty, ()⟩ threeReports)
      .debugger 2 5 := by
    intro j h₁ h₂
    obtain rfl | rfl : j = 3 ∨ j = 4 := by omega
    all_goals
      rintro ⟨op, hop, -⟩
      cases hop
  have htool : ((Machine.of onlyOnce).invocation? ((Machine.of onlyOnce).states
      (.initial ⟨listener, .empty, ()⟩ threeReports) 5)).map (·.tool) = some .debugger := by
    decide +kernel
  obtain ⟨call, hcall, ht⟩ := Option.map_eq_some_iff.1 htool
  exact ⟨hdis, call, hcall, ht,
    silent_until_lifted onlyOnce _ threeReports (by omega) hdis hkept hcall ht⟩

example : ((Machine.of onlyOnce).invocations (.initial ⟨listener, .empty, ()⟩ threeReports)
    20).map (·.occurrence.event) = [.line, .instruction] := by decide +kernel

end Machine

end Tracepoint
