/-
**Refused operations change nothing.**

An operation works in place: what it has written before it is refused stays written.  That nothing
is left behind all the same is a matter of the order of its checks and writes.  What an operation is
given is looked at first, and whether the slot has an owner last, and then it is refused before it
writes anything; or it writes first, as it does when a slot is given back, and what it has written
until it is refused is what was there.  So an operation has at most one reason to be refused, which
is the first one in this order, and the registry that is left behind by a refusal is the registry
that was there before, with its version.  An operation that is accepted counts as one change.

Main definitions:

* `Tracepoint.EventSet.NamesUnknown`, `Tracepoint.EventSet.NamesDerivedAlone` — what is wrong with a
  raw word and with a set of events;
* `Tracepoint.Registry.Refuses` — **why an operation is refused**.

Main results:

* `Tracepoint.EventSet.ofBits_eq_error_iff` — which raw words are refused;
* `Tracepoint.Registry.apply_eq_error_iff` — **the reasons are exact**;
* `Tracepoint.Registry.refusals_exact` — and a refusal changes nothing.
-/

import Mathlib.Data.Nat.Notation
import Tracepoint.Proofs.Registry.Outcome

set_option relaxedAutoImplicit false
set_option autoImplicit false

namespace Tracepoint

/-! ### What is wrong with events -/

namespace EventSet

/-- A bit of a raw word is not the place of any event. -/
def NamesUnknown (bits : UInt32) : Prop :=
  ∃ i, bits.toNat.testBit i = true ∧ ∀ e : Event, e.index.val ≠ i

/-- A set names the return or the failure of native callees, but not the call event. -/
def NamesDerivedAlone (s : EventSet) : Prop :=
  (s.has .nativeReturn = true ∨ s.has .nativeRaise = true) ∧ s.has .call = false

theorem armsDerivedAlone_iff (s : EventSet) :
    s.armsDerivedAlone = true ↔ s.NamesDerivedAlone := by
  simp [armsDerivedAlone, NamesDerivedAlone]

theorem namesUnknown_iff (bits : UInt32) : NamesUnknown bits ↔ ¬ NamesOnlyEvents ⟨bits⟩ := by
  simp only [NamesUnknown, NamesOnlyEvents, Classical.not_forall, not_exists]
  constructor
  · rintro ⟨i, hi, hnone⟩
    exact ⟨i, hi, hnone⟩
  · rintro ⟨i, hi, hnone⟩
    exact ⟨i, hi, hnone⟩

/-- **A raw word is refused exactly if it names something that is no event.** -/
theorem ofBits_eq_error_iff {bits : UInt32} {e : UnknownEventBits} :
    ofBits bits = .error e ↔ NamesUnknown bits ∧ e = ⟨bits, (unknown ⟨bits⟩).bits⟩ := by
  rw [namesUnknown_iff, namesOnlyEvents_iff, ← isEmpty_iff, ofBits]
  split
  · rename_i h
    simp [h]
  · rename_i h
    rw [Except.error.injEq, eq_comm]
    exact ⟨fun he => ⟨h, he⟩, And.right⟩

end EventSet

/-! ### Reasons -/

namespace Registry

/-- **Why an operation is refused.**  Where there are several reasons the first one counts: the bits
of a raw word, then the events or the shape, then the owner. -/
inductive Refuses (r : Registry) : Operation → MonitorError → Prop
  | claim {t : Tool} {name owner : String} (h : (r.slot t).owner = some owner) :
      Refuses r (.claim t name) (.toolInUse t owner)
  | free {t : Tool} (h : (r.slot t).inUse = false) : Refuses r (.free t) (.toolNotInUse t)
  | clear {t : Tool} (h : (r.slot t).inUse = false) : Refuses r (.clear t) (.toolNotInUse t)
  | shape {t : Tool} {e : Event} {c : Callback} (h : c.shape ≠ e.shape) :
      Refuses r (.register t e (some c)) (.shapeMismatch e c.shape)
  | register {t : Tool} {e : Event} {c : Callback} (shape : c.shape = e.shape)
      (h : (r.slot t).inUse = false) : Refuses r (.register t e (some c)) (.toolNotInUse t)
  | derivedGlobal {t : Tool} {events : EventSet} (h : events.NamesDerivedAlone) :
      Refuses r (.setGlobal t events) (.derivedWithoutCall events)
  | setGlobal {t : Tool} {events : EventSet} (whole : ¬ events.NamesDerivedAlone)
      (h : (r.slot t).inUse = false) : Refuses r (.setGlobal t events) (.toolNotInUse t)
  | unknownBits {t : Tool} {bits : UInt32} (h : EventSet.NamesUnknown bits) :
      Refuses r (.setGlobalBits t bits) (.unknownEventBits ⟨bits, (EventSet.unknown ⟨bits⟩).bits⟩)
  /-- A word that is known is refused as the set of its events. -/
  | setGlobalBits {t : Tool} {bits : UInt32} {events : EventSet} {error : MonitorError}
      (known : EventSet.ofBits bits = .ok events) (h : Refuses r (.setGlobal t events) error) :
      Refuses r (.setGlobalBits t bits) error
  | derivedLocal {t : Tool} {code : CodeId} {events : EventSet} (h : events.NamesDerivedAlone) :
      Refuses r (.setLocal t code events) (.derivedWithoutCall events)
  | setLocal {t : Tool} {code : CodeId} {events : EventSet} (whole : ¬ events.NamesDerivedAlone)
      (h : (r.slot t).inUse = false) : Refuses r (.setLocal t code events) (.toolNotInUse t)

section Reasons

variable {r : Registry} {t : Tool} {error : MonitorError}

/-- What is done to the slot of an owner is refused if there is none. -/
theorem ite_inUse_eq_error {r' : Registry} {previous : Option Callback} :
    (if (r.slot t).inUse then (r', Except.ok previous) else (r, .error (.toolNotInUse t))).2 =
        .error error ↔
      (r.slot t).inUse = false ∧ error = .toolNotInUse t := by
  split
  · rename_i h
    exact ⟨nofun, fun hno => absurd (h.symm.trans hno.1) nofun⟩
  · rename_i h
    rw [Except.error.injEq, eq_comm]
    exact ⟨fun he => ⟨Bool.not_eq_true _ ▸ h, he⟩, And.right⟩

/-- What is armed is refused if it names derived events alone, and then if there is no owner. -/
theorem ite_armsDerivedAlone_eq_error {r' : Registry} {previous : Option Callback}
    {events : EventSet} :
    (if events.armsDerivedAlone then (r, Except.error (.derivedWithoutCall events))
      else if (r.slot t).inUse then (r', .ok previous)
      else (r, .error (.toolNotInUse t))).2 = .error error ↔
      (events.NamesDerivedAlone ∧ error = .derivedWithoutCall events) ∨
        (¬ events.NamesDerivedAlone ∧ (r.slot t).inUse = false ∧ error = .toolNotInUse t) := by
  rw [← EventSet.armsDerivedAlone_iff]
  split
  · rename_i h
    rw [Except.error.injEq, eq_comm]
    exact ⟨fun he => Or.inl ⟨h, he⟩, fun hr => hr.elim And.right fun hno => absurd h hno.1⟩
  · rename_i h
    rw [ite_inUse_eq_error]
    exact ⟨fun hr => Or.inr ⟨h, hr⟩, fun hr => hr.elim (fun hyes => absurd hyes.1 h) And.right⟩

theorem setGlobal_eq_error_iff {events : EventSet} :
    (r.apply (.setGlobal t events)).2 = .error error ↔
      r.Refuses (.setGlobal t events) error := by
  rw [apply_setGlobal, ite_armsDerivedAlone_eq_error]
  constructor
  · rintro (⟨h, rfl⟩ | ⟨whole, h, rfl⟩)
    · exact .derivedGlobal h
    · exact .setGlobal whole h
  · intro h
    cases h with
    | derivedGlobal h => exact Or.inl ⟨h, rfl⟩
    | setGlobal whole h => exact Or.inr ⟨whole, h, rfl⟩

/-- **The reasons are exact**: an operation is refused with an error exactly if this is the reason
that it has. -/
theorem apply_eq_error_iff {op : Operation} :
    (r.apply op).2 = .error error ↔ r.Refuses op error := by
  cases op with
  | claim t name =>
      rw [apply_claim]
      cases howner : (r.slot t).owner with
      | none =>
          refine ⟨nofun, ?_⟩
          rintro ⟨h⟩
          rw [howner] at h
          cases h
      | some owner =>
          constructor
          · intro h
            cases h
            exact .claim howner
          · rintro ⟨h⟩
            rw [howner] at h
            cases h
            rfl
  | free t =>
      rw [apply_free, ite_inUse_eq_error]
      constructor
      · rintro ⟨h, rfl⟩
        exact .free h
      · intro h
        cases h with
        | free h => exact ⟨h, rfl⟩
  | clear t =>
      rw [apply_clear, ite_inUse_eq_error]
      constructor
      · rintro ⟨h, rfl⟩
        exact .clear h
      · intro h
        cases h with
        | clear h => exact ⟨h, rfl⟩
  | register t e callback =>
      cases callback with
      | none => constructor <;> rintro ⟨⟩
      | some c =>
          rw [apply_register_some]
          by_cases hs : c.shape = e.shape
          · rw [if_pos hs, ite_inUse_eq_error]
            constructor
            · rintro ⟨h, rfl⟩
              exact .register hs h
            · intro h
              cases h with
              | shape hne => exact absurd hs hne
              | register _ h => exact ⟨h, rfl⟩
          · rw [if_neg hs]
            constructor
            · rintro ⟨⟩
              exact .shape hs
            · intro h
              cases h with
              | shape => rfl
              | register hs' => exact absurd hs' hs
  | setGlobal t events => exact setGlobal_eq_error_iff
  | setGlobalBits t bits =>
      cases hb : EventSet.ofBits bits with
      | error unknown =>
          rw [apply_setGlobalBits_of_error r t hb]
          obtain ⟨hunknown, rfl⟩ := EventSet.ofBits_eq_error_iff.1 hb
          constructor
          · rintro ⟨⟩
            exact .unknownBits hunknown
          · intro h
            cases h with
            | unknownBits => rfl
            | setGlobalBits known =>
                rw [hb] at known
                cases known
      | ok events =>
          rw [apply_setGlobalBits_of_ok r t hb, setGlobal_eq_error_iff]
          constructor
          · exact .setGlobalBits hb
          · intro h
            cases h with
            | unknownBits hunknown =>
                rw [EventSet.ofBits_eq_error_iff.2 ⟨hunknown, rfl⟩] at hb
                cases hb
            | setGlobalBits known h =>
                rw [hb] at known
                cases known
                exact h
  | setLocal t code events =>
      rw [apply_setLocal, ite_armsDerivedAlone_eq_error]
      constructor
      · rintro (⟨h, rfl⟩ | ⟨whole, h, rfl⟩)
        · exact .derivedLocal h
        · exact .setLocal whole h
      · intro h
        cases h with
        | derivedLocal h => exact Or.inl ⟨h, rfl⟩
        | setLocal whole h => exact Or.inr ⟨whole, h, rfl⟩
  | restart => constructor <;> rintro ⟨⟩

end Reasons

/-! ### Refusals -/

/-- **Operations are refused for their reasons, and refusals change nothing.**  In every registry an
operation is refused with an error exactly if this is the reason that it has; then what it leaves
behind are the tables that were there, with owners, callbacks, armed events and disabled sites, the
union of armed events and the version.  If it is accepted, the version has grown by one. -/
theorem refusals_exact (r : Registry) (op : Operation) :
    (∀ error, (r.apply op).2 = .error error ↔ r.Refuses op error) ∧
      (∀ error, (r.apply op).2 = .error error → (r.apply op).1 = r) ∧
      ∀ previous, (r.apply op).2 = .ok previous →
        (r.apply op).1.version = r.version + 1 := by
  refine ⟨fun error => apply_eq_error_iff, fun error h => ?_, fun previous h => ?_⟩
  · rcases r.apply_cases op with ⟨-, hr⟩ | ⟨hok, -⟩
    · exact hr
    · rw [h] at hok
      cases hok
  · rcases r.apply_cases op with ⟨hrefused, -⟩ | ⟨-, out⟩
    · rw [h] at hrefused
      cases hrefused
    · exact out.version_eq

/-- A word with an unknown bit is refused for that, though the slot has no owner either. -/
example : (Registry.empty.apply (.setGlobalBits .debugger 0x8040)).2 =
    .error (.unknownEventBits ⟨0x8040, 0x8000⟩) := rfl

end Registry

end Tracepoint
