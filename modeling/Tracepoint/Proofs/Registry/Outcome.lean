/-
**What becomes of an operation.**

An operation edits the tables in place and stops where it is refused.  So a refusal leaves behind
what has been written up to there, and whether this is the registry from before is to be looked at
for each operation.  Most of them look before they write.  The one that gives a slot back does not:
it takes the name out of the slot first, and when it finds that there was none, it has written down
none where there was none.

This module follows the operations through their edits once.  It says for each of them under which
condition it is accepted, what the registry is then and what is replied, and that the registry is
the same otherwise; all that is proved about the registry elsewhere goes through these equations or
the case distinction that follows from them, and does not open an operation again.

Main definitions:

* `Tracepoint.Registry.Outcome` — the accepted operations with their outcomes.

Main results:

* `Tracepoint.Edit.release_of_vacant` — **to give back a slot without an owner** changes nothing,
  though it writes;
* `Tracepoint.Registry.apply_claim`, `Tracepoint.Registry.apply_free` and the others — what becomes
  of each operation;
* `Tracepoint.Registry.apply_cases` — **an operation changes nothing or has an outcome**;
* `Tracepoint.Registry.Outcome.version_eq` — an accepted operation makes the version grow by one.
-/

import Tracepoint.Proofs.Registry.Slot

set_option relaxedAutoImplicit false
set_option autoImplicit false

namespace Tracepoint

/-! ### Slots in use -/

namespace Slot

@[simp] theorem inUse_vacant : vacant.inUse = false := rfl

@[simp] theorem inUse_clear (s : Slot) : s.clear.inUse = s.inUse := rfl

@[simp] theorem inUse_setCallback (s : Slot) (e : Event) (c : Option Callback) :
    (s.setCallback e c).inUse = s.inUse := rfl

@[simp] theorem inUse_setGlobal (s : Slot) (events : EventSet) :
    (s.setGlobal events).inUse = s.inUse := rfl

@[simp] theorem inUse_setLocal (s : Slot) (code : CodeId) (events : EventSet) :
    (s.setLocal code events).inUse = s.inUse := rfl

@[simp] theorem inUse_forgetCode (s : Slot) : s.forgetCode.inUse = s.inUse := rfl

@[simp] theorem disabled_vacant : vacant.disabled = ∅ := rfl

@[simp] theorem disabled_clear (s : Slot) : s.clear.disabled = ∅ := rfl

@[simp] theorem disabled_setCallback (s : Slot) (e : Event) (c : Option Callback) :
    (s.setCallback e c).disabled = s.disabled := rfl

@[simp] theorem disabled_setGlobal (s : Slot) (events : EventSet) :
    (s.setGlobal events).disabled = s.disabled := rfl

@[simp] theorem disabled_setLocal (s : Slot) (code : CodeId) (events : EventSet) :
    (s.setLocal code events).disabled = s.disabled := rfl

@[simp] theorem disabled_forgetCode (s : Slot) : s.forgetCode.disabled = ∅ := rfl

end Slot

/-! ### Edits -/

/-- The tables after a slot has been given back. -/
def Tables.freed (tables : Tables) (t : Tool) : Tables :=
  let rest := (tables.setOwner t none).wipe t
  if rest.owners.all Option.isNone then rest.forgetCode else rest

namespace Edit

variable {tables : Tables} {t : Tool}

theorem claim_of_owner {owner : String} (h : (tables.slot t).owner = some owner) (name : String) :
    (claim t name).run tables = .error (.toolInUse t owner) tables := by
  simp [claim, h]

theorem claim_of_vacant (h : (tables.slot t).owner = none) (name : String) :
    (claim t name).run tables = .ok () (tables.setOwner t (some name)) := by
  simp [claim, h]

theorem release_of_owner {name : String} (h : (tables.slot t).owner = some name) :
    (release t).run tables = .ok name (tables.setOwner t none) := by
  simp [release, h]

/-- **To give back a slot without an owner changes nothing**, though it writes: the name is taken
out of the slot before anybody looks whether there is one. -/
theorem release_of_vacant (h : (tables.slot t).owner = none) :
    (release t).run tables = .error (.toolNotInUse t) tables := by
  have hset : tables.owners.set t none = tables.owners := by
    rw [← show tables.owners.get t = none from h]
    exact Vector.set_getElem_self t.isLt
  have hsame : tables.setOwner t none = tables := by rw [Tables.setOwner, hset]
  simp only [release, EStateM.run_bind, EStateM.run_modifyGet, Tables.owner?_eq, h, hsame]
  rfl

theorem require_of_inUse (h : (tables.slot t).inUse = true) :
    (require t).run tables = .ok () tables := by
  simp [require, h]

theorem require_of_not_inUse (h : (tables.slot t).inUse = false) :
    (require t).run tables = .error (.toolNotInUse t) tables := by
  simp [require, h]

theorem run_free (tables : Tables) (t : Tool) :
    ∃ name, (free t).run tables =
      if (tables.slot t).inUse then .ok name (tables.freed t)
      else .error (.toolNotInUse t) tables := by
  cases h : (tables.slot t).owner with
  | none =>
      refine ⟨"", ?_⟩
      rw [if_neg (by simp [Slot.inUse, h])]
      simp only [free, EStateM.run_bind, release_of_vacant h]
  | some name =>
      refine ⟨name, ?_⟩
      rw [if_pos (by simp [Slot.inUse, h])]
      simp only [free, EStateM.run_bind, release_of_owner h, EStateM.run_modify, EStateM.run_get,
        Tables.freed]
      split <;> rfl

/-- What needs an owner is done if there is one, and else the tables are what they were. -/
theorem run_require_bind {α : Type} (edit : Edit α) :
    (do require t; edit : Edit α).run tables =
      if (tables.slot t).inUse then edit.run tables else .error (.toolNotInUse t) tables := by
  cases h : (tables.slot t).inUse with
  | true => simp only [EStateM.run_bind, require_of_inUse h, if_true]
  | false => simp only [EStateM.run_bind, require_of_not_inUse h, Bool.false_eq_true, if_false]

end Edit

/-! ### Operations -/

namespace Registry

section Attempts

variable {α : Type} {r r' : Registry} {p : Prop} [Decidable p] {a : α} {e : MonitorError}

/-- An edit that goes through is published, and one that is refused and leaves the tables as they
were changes nothing. -/
theorem run_mutate {edit : Edit α} {tables : Tables}
    (h : edit.run r.tables = if p then .ok a tables else .error e r.tables) :
    (mutate edit).run r = if p then .ok a (r.publish tables) else .error e r := by
  show mutate edit r = _
  rw [mutate, h]
  by_cases hp : p
  · rw [if_pos hp, if_pos hp]
  · rw [if_neg hp, if_neg hp]

/-- An operation that replaces no callback does what it attempts. -/
theorem apply_of_run {op : Operation} {x : Attempt α}
    (hop : perform op = (do let _ ← x; return none))
    (h : x.run r = if p then .ok a r' else .error e r) :
    r.apply op = if p then (r', .ok none) else (r, .error e) := by
  rw [apply, hop]
  simp only [EStateM.run_bind, h]
  by_cases hp : p
  · rw [if_pos hp, if_pos hp]
    rfl
  · rw [if_neg hp, if_neg hp]

theorem run_checkEvents_bind (events : EventSet) (x : Attempt α) :
    (do checkEvents events; x : Attempt α).run r =
      if events.armsDerivedAlone then .error (.derivedWithoutCall events) r else x.run r := by
  cases h : events.armsDerivedAlone <;> simp only [checkEvents, h] <;> rfl

theorem run_checkShape_bind (event : Event) (c : Callback) (x : Attempt α) :
    (do checkShape event c; x : Attempt α).run r =
      if c.shape = event.shape then x.run r else .error (.shapeMismatch event c.shape) r := by
  by_cases h : c.shape = event.shape
  · rw [if_pos h]
    simp only [checkShape, h, ne_eq, not_true_eq_false, if_false]
    rfl
  · rw [if_neg h]
    simp only [checkShape, h, ne_eq, not_false_eq_true, if_true]
    rfl

end Attempts

section Equations

variable (r : Registry) (t : Tool)

theorem apply_claim (name : String) :
    r.apply (.claim t name) =
      (r.slot t).owner.elim (r.publish (r.tables.setOwner t (some name)), .ok none)
        fun owner => (r, .error (.toolInUse t owner)) := by
  cases h : (r.slot t).owner with
  | none =>
      have hrun : (Edit.claim t name).run r.tables =
          if True then .ok () (r.tables.setOwner t (some name))
          else .error (.toolNotInUse t) r.tables := Edit.claim_of_vacant h name
      exact apply_of_run rfl (run_mutate hrun)
  | some owner =>
      have hrun : (Edit.claim t name).run r.tables =
          if False then .ok () r.tables else .error (.toolInUse t owner) r.tables :=
        Edit.claim_of_owner h name
      exact apply_of_run rfl (run_mutate hrun)

theorem apply_free :
    r.apply (.free t) =
      if (r.slot t).inUse then (r.publish (r.tables.freed t), .ok none)
      else (r, .error (.toolNotInUse t)) := by
  obtain ⟨name, hrun⟩ := Edit.run_free r.tables t
  exact apply_of_run rfl (run_mutate hrun)

theorem apply_clear :
    r.apply (.clear t) =
      if (r.slot t).inUse then (r.publish (r.tables.wipe t), .ok none)
      else (r, .error (.toolNotInUse t)) :=
  apply_of_run rfl (run_mutate (Edit.run_require_bind _))

theorem apply_register_none (e : Event) :
    r.apply (.register t e none) =
      (r.publish (r.tables.setCallback t e none), .ok ((r.slot t).callback? e)) := rfl

theorem apply_register_some (e : Event) (c : Callback) :
    r.apply (.register t e (some c)) =
      if c.shape = e.shape then
        if (r.slot t).inUse then
          (r.publish (r.tables.setCallback t e (some c)), .ok ((r.slot t).callback? e))
        else (r, .error (.toolNotInUse t))
      else (r, .error (.shapeMismatch e c.shape)) := by
  have hedit : (Edit.register t e (some c)).run r.tables =
      if (r.slot t).inUse then
        .ok ((r.slot t).callback? e) (r.tables.setCallback t e (some c))
      else .error (.toolNotInUse t) r.tables := Edit.run_require_bind _
  simp only [apply, perform, register, run_checkShape_bind, run_mutate hedit]
  by_cases hshape : c.shape = e.shape
  · rw [if_pos hshape, if_pos hshape]
    cases (r.slot t).inUse <;> rfl
  · rw [if_neg hshape, if_neg hshape]

/-- What arms events does so if they are whole and there is an owner. -/
theorem run_checkEvents_mutate {events : EventSet} {edit : Edit Unit} {tables : Tables}
    (h : edit.run r.tables =
      if (r.slot t).inUse then .ok () tables else .error (.toolNotInUse t) r.tables) :
    (do checkEvents events; mutate edit : Attempt Unit).run r =
      if events.armsDerivedAlone then .error (.derivedWithoutCall events) r
      else if (r.slot t).inUse then .ok () (r.publish tables) else .error (.toolNotInUse t) r := by
  rw [run_checkEvents_bind, run_mutate h]

/-- What becomes of an operation that arms events. -/
theorem apply_of_arming {op : Operation} {x : Attempt Unit} {events : EventSet} {tables : Tables}
    (hop : perform op = (do x; return none))
    (h : x.run r =
      if events.armsDerivedAlone then .error (.derivedWithoutCall events) r
      else if (r.slot t).inUse then .ok () (r.publish tables) else .error (.toolNotInUse t) r) :
    r.apply op =
      if events.armsDerivedAlone then (r, .error (.derivedWithoutCall events))
      else if (r.slot t).inUse then (r.publish tables, .ok none)
      else (r, .error (.toolNotInUse t)) := by
  rw [apply, hop]
  simp only [EStateM.run_bind, h]
  cases events.armsDerivedAlone
  · cases (r.slot t).inUse <;> rfl
  · rfl

theorem apply_setGlobal (events : EventSet) :
    r.apply (.setGlobal t events) =
      if events.armsDerivedAlone then (r, .error (.derivedWithoutCall events))
      else if (r.slot t).inUse then (r.publish (r.tables.setGlobal t events), .ok none)
      else (r, .error (.toolNotInUse t)) :=
  apply_of_arming r t rfl (run_checkEvents_mutate r t (Edit.run_require_bind _))

theorem apply_setLocal (code : CodeId) (events : EventSet) :
    r.apply (.setLocal t code events) =
      if events.armsDerivedAlone then (r, .error (.derivedWithoutCall events))
      else if (r.slot t).inUse then (r.publish (r.tables.setLocal t code events), .ok none)
      else (r, .error (.toolNotInUse t)) :=
  apply_of_arming r t rfl (run_checkEvents_mutate r t (Edit.run_require_bind _))

/-- A raw word that is no set of events is refused, whatever slot it is for. -/
theorem apply_setGlobalBits_of_error {bits : UInt32} {e : UnknownEventBits}
    (h : EventSet.ofBits bits = .error e) :
    r.apply (.setGlobalBits t bits) = (r, .error (.unknownEventBits e)) := by
  simp only [apply, perform, setGlobalBits, h]
  rfl

/-- A raw word that is a set of events is armed as this set. -/
theorem apply_setGlobalBits_of_ok {bits : UInt32} {events : EventSet}
    (h : EventSet.ofBits bits = .ok events) :
    r.apply (.setGlobalBits t bits) = r.apply (.setGlobal t events) := by
  simp only [apply, perform, setGlobalBits, h]

theorem apply_restart : r.apply .restart = (r.restart, .ok none) := rfl

end Equations

/-! ### Accepted operations -/

/-- **The accepted operations with their outcomes.**  All but the last two put new content into one
slot. -/
inductive Outcome (r : Registry) : Operation → Registry → Prop
  /-- A slot without an owner is taken. -/
  | claim {t : Tool} {name : String} {tables : Tables} (vacancy : (r.slot t).owner = none)
      (puts : r.tables.Puts t { r.slot t with owner := some name } tables) :
      Outcome r (.claim t name) (r.publish tables)
  /-- A slot is given back while another one has an owner. -/
  | free {t : Tool} {tables : Tables} (owned : (r.slot t).inUse = true)
      (others : ∃ u, u ≠ t ∧ (r.slot u).inUse = true) (puts : r.tables.Puts t .vacant tables) :
      Outcome r (.free t) (r.publish tables)
  /-- Everything but its owner is forgotten of a slot. -/
  | clear {t : Tool} {tables : Tables} (owned : (r.slot t).inUse = true)
      (puts : r.tables.Puts t (r.slot t).clear tables) : Outcome r (.clear t) (r.publish tables)
  /-- A callback is taken away. -/
  | unregister {t : Tool} {e : Event} {tables : Tables}
      (puts : r.tables.Puts t ((r.slot t).setCallback e none) tables) :
      Outcome r (.register t e none) (r.publish tables)
  /-- A callback is put in. -/
  | register {t : Tool} {e : Event} {c : Callback} {tables : Tables} (shape : c.shape = e.shape)
      (owned : (r.slot t).inUse = true)
      (puts : r.tables.Puts t ((r.slot t).setCallback e (some c)) tables) :
      Outcome r (.register t e (some c)) (r.publish tables)
  /-- Events are armed everywhere. -/
  | setGlobal {t : Tool} {events : EventSet} {tables : Tables}
      (whole : events.armsDerivedAlone = false) (owned : (r.slot t).inUse = true)
      (puts : r.tables.Puts t ((r.slot t).setGlobal events) tables) :
      Outcome r (.setGlobal t events) (r.publish tables)
  /-- The events of a raw word are armed everywhere. -/
  | setGlobalBits {t : Tool} {bits : UInt32} {events : EventSet} {tables : Tables}
      (known : EventSet.ofBits bits = .ok events) (whole : events.armsDerivedAlone = false)
      (owned : (r.slot t).inUse = true)
      (puts : r.tables.Puts t ((r.slot t).setGlobal events) tables) :
      Outcome r (.setGlobalBits t bits) (r.publish tables)
  /-- Further events are armed in a code unit. -/
  | setLocal {t : Tool} {code : CodeId} {events : EventSet} {tables : Tables}
      (whole : events.armsDerivedAlone = false) (owned : (r.slot t).inUse = true)
      (puts : r.tables.Puts t ((r.slot t).setLocal code events) tables) :
      Outcome r (.setLocal t code events) (r.publish tables)
  /-- The last slot is given back. -/
  | freeLast {t : Tool} {tables : Tables} (owned : (r.slot t).inUse = true)
      (alone : ∀ u, u ≠ t → (r.slot u).inUse = false) (puts : r.tables.Puts t .vacant tables) :
      Outcome r (.free t) (r.publish tables.forgetCode)
  /-- What is disabled is reported again. -/
  | restart : Outcome r .restart r.restart

end Registry

namespace Tables

/-- Nothing is left of a slot that is given back. -/
theorem puts_vacant (tables : Tables) (t : Tool) :
    tables.Puts t .vacant ((tables.setOwner t none).wipe t) := by
  have hput := tables.puts_setOwner t none
  have hwipe := (tables.setOwner t none).puts_wipe t
  rw [hput.slot, if_pos rfl] at hwipe
  exact hput.trans hwipe

theorem all_isNone_iff {tables : Tables} :
    tables.owners.all Option.isNone = true ↔ ∀ u, (tables.slot u).inUse = false := by
  rw [Vector.all_eq_true]
  constructor
  · exact fun h u => Option.isSome_eq_false_iff.2 (h u.val u.isLt)
  · exact fun h i hi => Option.isSome_eq_false_iff.1 (h ⟨i, hi⟩)

end Tables

namespace Registry

/-- **The outcomes are complete**: an operation is refused and changes nothing, or it is accepted
and has an outcome. -/
theorem apply_cases (r : Registry) (op : Operation) :
    ((r.apply op).2.isOk = false ∧ (r.apply op).1 = r) ∨
      ((r.apply op).2.isOk = true ∧ Outcome r op (r.apply op).1) := by
  cases op with
  | claim t name =>
      rw [apply_claim]
      cases h : (r.slot t).owner with
      | some owner => exact Or.inl ⟨rfl, rfl⟩
      | none => exact Or.inr ⟨rfl, .claim h (r.tables.puts_setOwner t _)⟩
  | free t =>
      rw [apply_free]
      split
      · rename_i howned
        refine Or.inr ⟨rfl, ?_⟩
        have hputs : r.tables.Puts t .vacant ((r.tables.setOwner t none).wipe t) :=
          r.tables.puts_vacant t
        have hnone : ((r.tables.setOwner t none).wipe t).owners.all Option.isNone = true ↔
            ∀ u, u ≠ t → (r.slot u).inUse = false := by
          rw [Tables.all_isNone_iff]
          refine forall_congr' fun u => ?_
          rw [hputs.slot]
          split
          · rename_i htu
            exact ⟨fun _ hne => absurd htu.symm hne, fun _ => rfl⟩
          · rename_i htu
            exact ⟨fun h _ => h, fun h => h fun hut => htu hut.symm⟩
        dsimp only [Tables.freed]
        split
        · rename_i hlast
          exact .freeLast howned (hnone.1 hlast) hputs
        · rename_i hothers
          refine .free howned ?_ hputs
          rw [hnone] at hothers
          simpa using hothers
      · exact Or.inl ⟨rfl, rfl⟩
  | clear t =>
      rw [apply_clear]
      split
      · rename_i howned
        exact Or.inr ⟨rfl, .clear howned (r.tables.puts_wipe t)⟩
      · exact Or.inl ⟨rfl, rfl⟩
  | register t e callback =>
      cases callback with
      | none => exact Or.inr ⟨rfl, .unregister (r.tables.puts_setCallback ..)⟩
      | some c =>
          rw [apply_register_some]
          split
          · rename_i hshape
            split
            · rename_i howned
              exact Or.inr ⟨rfl, .register hshape howned (r.tables.puts_setCallback ..)⟩
            · exact Or.inl ⟨rfl, rfl⟩
          · exact Or.inl ⟨rfl, rfl⟩
  | setGlobal t events =>
      rw [apply_setGlobal]
      split
      · exact Or.inl ⟨rfl, rfl⟩
      · rename_i hwhole
        split
        · rename_i howned
          exact Or.inr ⟨rfl, .setGlobal (Bool.not_eq_true _ ▸ hwhole) howned
            (r.tables.puts_setGlobal t _)⟩
        · exact Or.inl ⟨rfl, rfl⟩
  | setGlobalBits t bits =>
      cases hbits : EventSet.ofBits bits with
      | error e =>
          rw [apply_setGlobalBits_of_error r t hbits]
          exact Or.inl ⟨rfl, rfl⟩
      | ok events =>
          rw [apply_setGlobalBits_of_ok r t hbits, apply_setGlobal]
          split
          · exact Or.inl ⟨rfl, rfl⟩
          · rename_i hwhole
            split
            · rename_i howned
              exact Or.inr ⟨rfl, .setGlobalBits hbits (Bool.not_eq_true _ ▸ hwhole) howned
                (r.tables.puts_setGlobal t _)⟩
            · exact Or.inl ⟨rfl, rfl⟩
  | setLocal t code events =>
      rw [apply_setLocal]
      split
      · exact Or.inl ⟨rfl, rfl⟩
      · rename_i hwhole
        split
        · rename_i howned
          exact Or.inr ⟨rfl, .setLocal (Bool.not_eq_true _ ▸ hwhole) howned
            (r.tables.puts_setLocal ..)⟩
        · exact Or.inl ⟨rfl, rfl⟩
  | restart => exact Or.inr ⟨rfl, .restart⟩

/-- An accepted operation makes the version grow by one. -/
theorem Outcome.version_eq {r r' : Registry} {op : Operation} (h : Outcome r op r') :
    r'.version = r.version + 1 := by
  cases h <;> rfl

end Registry

end Tracepoint
