/-
**Equal versions mean equal registries.**

Whoever keeps something that was read from the registry looks at the version to find out whether it
is out of date.  The version is all that is looked at, so that it has to move with every change:
with each operation that is accepted, with each site that a callback disables and that was not
disabled before, and with each restart.  These are the *mutations* of a run.

The registry counts its mutations with a natural number, and what is shown of the count is a word of
64 bits.  As long as there have been fewer mutations than there are words, no word comes back, and
so two states of a run that show the same word have no mutation between them.

Main definitions:

* `Tracepoint.Registry.versionWord` — the version as it is shown;
* `Tracepoint.Registry.admits` — a change goes through;
* `Tracepoint.State.mutation?` — the mutation that the next step makes.

Main results:

* `Tracepoint.Registry.version_after` — a change that goes through makes the version grow by one;
* `Tracepoint.Machine.version_states` — the version is the number of mutations;
* `Tracepoint.Machine.registry_eq_of_versionWord_eq` — **versions never decrease, and equal ones
  mean equal registries**.
-/

import Mathlib.Algebra.Group.Nat.Defs
import Tracepoint.Proofs.Machine.Observation

set_option relaxedAutoImplicit false
set_option autoImplicit false

namespace Tracepoint

variable {σ : Type}

namespace Registry

/-! ### The version as it is shown -/

/-- The version as it is shown, which is the number of mutations as long as this fits. -/
def versionWord (r : Registry) : UInt64 := UInt64.ofNat r.version

theorem toNat_versionWord {r : Registry} (h : r.version < 2 ^ 64) :
    r.versionWord.toNat = r.version := by
  rw [versionWord, UInt64.toNat_ofNat']
  exact Nat.mod_eq_of_lt h

/-! ### Changes that go through -/

/-- A change goes through: the operation is accepted, or the site was not disabled before. -/
def admits (r : Registry) : Change → Bool
  | .operate op => (r.apply op).2.isOk
  | .disable t site => !(r.slot t).disabled.contains site

/-- A change that does not go through changes nothing. -/
theorem after_of_not_admits {r : Registry} {c : Change} (h : r.admits c = false) :
    r.after c = r := by
  cases c with
  | operate op =>
      rcases r.apply_cases op with ⟨-, hr⟩ | ⟨hok, -⟩
      · exact hr
      · rw [admits, hok] at h
        cases h
  | disable t site =>
      rw [admits, Bool.not_eq_false'] at h
      exact disable_of_mem h

/-- A change that goes through makes the version grow by one. -/
theorem version_after {r : Registry} {c : Change} (h : r.admits c = true) :
    (r.after c).version = r.version + 1 := by
  cases c with
  | operate op =>
      rcases r.apply_cases op with ⟨hrefused, -⟩ | ⟨-, out⟩
      · rw [admits, hrefused] at h
        cases h
      · exact out.version_eq
  | disable t site =>
      rw [admits, Bool.not_eq_true'] at h
      exact version_disable_of_not_mem h

end Registry

/-- **The mutation that the next step makes**: the change of the registry, if it goes through. -/
def State.mutation? (s : State σ) : Option Change := s.change?.filter s.world.registry.admits

namespace Machine

/-! ### Steps and runs -/

/-- A step without a mutation leaves the registry as it is. -/
theorem registry_advance_of_none {m : Machine σ} {s : State σ} (h : s.mutation? = none) :
    (m.advance s).world.registry = s.world.registry := by
  rw [m.registry_advance]
  cases hc : s.change? with
  | none => rfl
  | some c =>
      rw [State.mutation?, hc, Option.filter_some] at h
      split at h
      · cases h
      · rename_i hrefused
        exact Registry.after_of_not_admits (Bool.not_eq_true _ ▸ hrefused)

/-- A step makes the version grow by the number of its mutations, which is one or none. -/
theorem version_advance (m : Machine σ) (s : State σ) :
    (m.advance s).world.registry.version =
      s.world.registry.version + s.mutation?.toList.length := by
  cases h : s.mutation? with
  | none => rw [registry_advance_of_none h, Option.toList_none, List.length_nil, Nat.add_zero]
  | some c =>
      obtain ⟨hc, hadmits⟩ := Option.filter_eq_some_iff.1 h
      rw [m.registry_advance, hc, Option.elim_some, Registry.version_after hadmits]
      rfl

/-- **The version is the number of mutations** that have been made. -/
theorem version_states (m : Machine σ) (s : State σ) (n : ℕ) :
    (m.states s n).world.registry.version =
      s.world.registry.version + (m.observed State.mutation? s n).length := by
  induction n with
  | zero => rfl
  | succ n ih =>
      rw [states_succ, version_advance, ih, observed_add, observed_one, List.length_append]
      omega

/-- Without mutations the registry stays as it is. -/
theorem registry_states_of_observed_eq_nil {m : Machine σ} {s : State σ} {n : ℕ}
    (h : m.observed State.mutation? s n = []) :
    (m.states s n).world.registry = s.world.registry := by
  induction n with
  | zero => rfl
  | succ n ih =>
      rw [observed_add, observed_one, List.append_eq_nil_iff, Option.toList_eq_nil_iff] at h
      rw [states_succ, registry_advance_of_none h.2, ih h.1]

/-- Two states of a run with the same number of mutations before them have the same registry. -/
theorem registry_states_of_version_eq {m : Machine σ} {s : State σ} {i n : ℕ} (hin : i ≤ n)
    (h : (m.states s i).world.registry.version = (m.states s n).world.registry.version) :
    (m.states s i).world.registry = (m.states s n).world.registry := by
  obtain ⟨d, rfl⟩ := Nat.exists_eq_add_of_le hin
  have hd : m.states s (i + d) = m.states (m.states s i) d := by
    rw [Nat.add_comm, states_add]
  have hversion := m.version_states (m.states s i) d
  rw [hd] at h ⊢
  have hnone : m.observed State.mutation? (m.states s i) d = [] :=
    List.eq_nil_of_length_eq_zero (by omega)
  exact (registry_states_of_observed_eq_nil hnone).symm

/-! ### What the version tells -/

/-- **Versions never decrease, and equal ones mean equal registries.**  This is so in all states of
a run that begins with the empty registry, also in the middle of dispatches and callbacks, as long
as there are fewer mutations than words.  Equal registries have the same owners, callbacks, armed
events, disabled sites and union, and so all that is asked of them has the same answer. -/
theorem registry_eq_of_versionWord_eq (m : Machine σ) (heap : Heap) (memory : σ)
    (script : Script σ) {N : ℕ}
    (hN : (m.observed State.mutation? (.initial ⟨.empty, heap, memory⟩ script) N).length < 2 ^ 64)
    {i n : ℕ} (hin : i ≤ n) (hn : n ≤ N) :
    let registry k := (m.states (.initial ⟨.empty, heap, memory⟩ script) k).world.registry
    (registry i).versionWord ≤ (registry n).versionWord ∧
      ((registry i).versionWord = (registry n).versionWord → registry i = registry n) := by
  intro registry
  have hcount : ∀ k, (registry k).version =
      (m.observed State.mutation? (.initial ⟨.empty, heap, memory⟩ script) k).length := by
    intro k
    rw [m.version_states]
    exact Nat.zero_add _
  -- the mutations of a shorter run are among those of a longer one
  have hmono : ∀ {j k : ℕ}, j ≤ k → (registry j).version ≤ (registry k).version := by
    intro j k hjk
    obtain ⟨d, rfl⟩ := Nat.exists_eq_add_of_le hjk
    rw [hcount, hcount, observed_add, List.length_append]
    omega
  have hword : ∀ {k : ℕ}, k ≤ N → (registry k).versionWord.toNat = (registry k).version := by
    intro k hk
    refine Registry.toNat_versionWord (Nat.lt_of_le_of_lt (hmono hk) ?_)
    rw [hcount]
    exact hN
  constructor
  · rw [UInt64.le_iff_toNat_le, hword (Nat.le_trans hin hn), hword hn]
    exact hmono hin
  · intro h
    refine registry_states_of_version_eq hin ?_
    have hnat := congrArg UInt64.toNat h
    rwa [hword (Nat.le_trans hin hn), hword hn] at hnat

/-- A slot is claimed twice, which is refused the second time. -/
def claimTwice : Script Unit :=
  .operate (.claim .debugger "first") fun _ => .operate (.claim .debugger "second") fun _ => .done

theorem registry_eq_of_claim_refused :
    ((Machine.of fun _ _ => .done).observed State.mutation?
        (.initial ⟨.empty, .empty, ()⟩ claimTwice) 2).length < 2 ^ 64 ∧
      ((Machine.of fun _ _ => .done).states
          (.initial ⟨.empty, .empty, ()⟩ claimTwice) 1).world.registry =
        ((Machine.of fun _ _ => .done).states
          (.initial ⟨.empty, .empty, ()⟩ claimTwice) 2).world.registry := by
  have hN : ((Machine.of fun _ _ => .done).observed State.mutation?
      (.initial ⟨.empty, .empty, ()⟩ claimTwice) 2).length < 2 ^ 64 := by decide +kernel
  exact ⟨hN, (registry_eq_of_versionWord_eq (Machine.of fun _ _ => .done) .empty () claimTwice hN
    (i := 1) (by omega) (by omega)).2 rfl⟩

end Machine

end Tracepoint
