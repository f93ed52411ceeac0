/-
**What is read of the registry follows the history.**

The history of the registry is the list of the operations that it has accepted.  Whatever is read
of a slot is a matter of the last operation that has written it: the name is that of the last claim,
unless the slot was given back since; a set of events is the one that was armed last, and a callback
the one that was registered last, unless the slot was given back or cleared since.  What is
disabled does not matter for this, nor do the operations that are addressed to other tools, nor
those that were refused.

The one operation that reaches further is to give the last slot back, as then all that is kept by
code unit is forgotten in all slots.  The other slots have no owners then, and so they have nothing
left of it but disabled sites.

Main definitions:

* `Tracepoint.standing` — **what was written last and not erased since**;
* `Tracepoint.State.accepted?` — the operation that the next step makes, if it is accepted;
* `Tracepoint.Slot.operated` — what an operation does to a slot, up to disabled sites;
* `Tracepoint.Registry.Recalls` — the registry has the content that a history has left.

Main results:

* `Tracepoint.standing_eq_some_iff` — what stands was written, and nothing was written or erased
  since;
* `Tracepoint.Registry.slot_apply` — each slot has its own history;
* `Tracepoint.Machine.registry_recalls` — **the registry recalls the history of the run**.
-/

import Mathlib.Data.List.Induction
import Tracepoint.Proofs.Registry.Tidiness
import Tracepoint.Proofs.Registry.Version

set_option relaxedAutoImplicit false
set_option autoImplicit false

namespace Tracepoint

variable {σ : Type}

/-! ### What stands after a history -/

section Standing

variable {α β : Type}

/-- **What was written last and not erased since**, if there is such a thing. -/
def standing (write : α → Option β) (erases : α → Bool) (history : List α) : Option β :=
  history.foldl (fun kept x => (write x).or (if erases x then none else kept)) none

variable {write : α → Option β} {erases : α → Bool}

theorem standing_concat (history : List α) (x : α) :
    standing write erases (history ++ [x]) =
      (write x).or (if erases x then none else standing write erases history) := by
  simp [standing]

end Standing

/-! ### What operations write and erase -/

namespace Operation

/-- The owner that the slot of a tool gets. -/
def owner? (t : Tool) : Operation → Option (Option String)
  | .claim u name => if u = t then some (some name) else none
  | _ => none

/-- The events that are armed everywhere for a tool, as they are kept. -/
def armsGlobally? (t : Tool) : Operation → Option EventSet
  | .setGlobal u events => if u = t then some events.stored else none
  | .setGlobalBits u bits =>
      if u = t then (EventSet.ofBits bits).toOption.map EventSet.stored else none
  | _ => none

/-- The events that are armed for a tool in a code unit, as they are kept. -/
def armsLocally? (t : Tool) (code : CodeId) : Operation → Option EventSet
  | .setLocal u unit events => if u = t ∧ unit = code then some events.stored else none
  | _ => none

/-- The callback, or none, that is put in for a tool and an event. -/
def installs? (t : Tool) (e : Event) : Operation → Option (Option Callback)
  | .register u f callback => if u = t ∧ f = e then some callback else none
  | _ => none

/-- The slot of a tool is given back. -/
def frees (t : Tool) : Operation → Bool
  | .free u => u = t
  | _ => false

/-- The slot of a tool is given back or cleared. -/
def wipes (t : Tool) : Operation → Bool
  | .free u | .clear u => u = t
  | _ => false

end Operation

namespace Slot

/-- The slot of a tool after an accepted operation, up to disabled sites. -/
def operated (t : Tool) (s : Slot) : Operation → Slot
  | .claim u name => if u = t then { s with owner := some name } else s
  | .free u => if u = t then vacant else s
  | .clear u => if u = t then s.clear else s
  | .register u e callback => if u = t then s.setCallback e callback else s
  | .setGlobal u events => if u = t then s.setGlobal events else s
  | .setGlobalBits u bits =>
      match EventSet.ofBits bits with
      | .error _ => s
      | .ok events => if u = t then s.setGlobal events else s
  | .setLocal u code events => if u = t then s.setLocal code events else s
  | .restart => s

/-- The slot with nothing disabled. -/
def enabled (s : Slot) : Slot := { s with disabled := ∅ }

/-- A slot without an owner has only disabled sites to forget. -/
theorem IsBare.forgetCode_eq {s : Slot} (h : s.IsBare) : s.forgetCode = s.enabled := by
  rw [IsBare] at h
  rw [h]
  rfl

end Slot

namespace Registry

/-- **Each slot has its own history**: an accepted operation does to it what it does to the slot
alone, up to disabled sites. -/
theorem enabled_slot_apply {r : Registry} (h : r.Reachable) {op : Operation}
    (hok : (r.apply op).2.isOk = true) (t : Tool) :
    ((r.apply op).1.slot t).enabled = ((r.slot t).operated t op).enabled := by
  rcases r.apply_cases op with ⟨hrefused, -⟩ | ⟨-, out⟩
  · rw [hok] at hrefused
    cases hrefused
  · generalize (r.apply op).1 = r' at out ⊢
    cases out with
    | @freeLast u _ owned alone puts =>
        rw [slot_publish, Tables.slot_forgetCode, puts.slot, Slot.operated]
        split
        · rfl
        · rename_i hut
          -- the slot has no owner, and so only disabled sites can be forgotten
          rw [slot_tables, (h.isBare t (alone t fun htu => hut htu.symm)).forgetCode_eq]
          rfl
    | free _ _ puts => rw [slot_publish, puts.slot, Slot.operated, slot_tables]
    | restart => rw [slot_restart, Slot.operated, Slot.enabled, Slot.enabled]
    | setGlobalBits known _ _ puts =>
        rw [slot_publish, puts.slot, Slot.operated, known]
        split
        · rename_i hut
          rw [hut]
        · rfl
    | _ =>
        rename_i puts
        rw [slot_publish, puts.slot, Slot.operated]
        split
        · rename_i hut
          rw [hut]
        · rfl

theorem enabled_slot_disable (r : Registry) (t u : Tool) (site : Site) :
    ((r.disable t site).slot u).enabled = (r.slot u).enabled := by
  rw [slot_disable]
  split <;> rfl

/-- A callback is registered in the place of the one that is there. -/
theorem eq_callback?_of_register {r : Registry} {t : Tool} {e : Event}
    {callback previous : Option Callback}
    (h : (r.apply (.register t e callback)).2 = .ok previous) :
    previous = (r.slot t).callback? e := by
  cases callback with
  | none =>
      cases h
      rfl
  | some c =>
      rw [apply_register_some] at h
      split at h
      · split at h
        · cases h
          rfl
        · cases h
      · cases h

end Registry

/-! ### What is read of a slot -/

/-- What is read of the slot of a tool is what operations write there, and `blank` where there is
nothing or it is erased. -/
structure Slot.Follows {β : Type} (t : Tool) (read : Slot → β) (blank : β)
    (write : Operation → Option β) (erases : Operation → Bool) : Prop where
  vacant : read .vacant = blank
  enabled : ∀ s, read s.enabled = read s
  operated : ∀ s op, read (s.operated t op) =
    (write op).getD (if erases op then blank else read s)

namespace Slot

theorem follows_owner (t : Tool) :
    Follows t owner none (Operation.owner? t) (Operation.frees t) where
  vacant := rfl
  enabled _ := rfl
  operated s op := by
    cases op with
    | setGlobalBits u bits =>
        simp only [Slot.operated]
        split
        · rfl
        · split <;> rfl
    | restart => rfl
    | _ u =>
        by_cases h : u = t <;>
          simp [Slot.operated, Operation.owner?, Operation.frees, h, Slot.vacant, clear,
            setCallback, setGlobal, setLocal]

theorem follows_globalEvents (t : Tool) :
    Follows t globalEvents ∅ (Operation.armsGlobally? t) (Operation.wipes t) where
  vacant := rfl
  enabled _ := rfl
  operated s op := by
    cases op with
    | setGlobalBits u bits =>
        by_cases h : u = t <;> cases hbits : EventSet.ofBits bits <;>
          simp [Slot.operated, Operation.armsGlobally?, Operation.wipes, h, hbits, setGlobal,
            Except.toOption]
    | restart => rfl
    | _ u =>
        by_cases h : u = t <;>
          simp [Slot.operated, Operation.armsGlobally?, Operation.wipes, h, Slot.vacant, clear,
            setCallback, setGlobal, setLocal]

theorem follows_localSet (t : Tool) (code : CodeId) :
    Follows t (localSet · code) ∅ (Operation.armsLocally? t code) (Operation.wipes t) where
  vacant := rfl
  enabled _ := rfl
  operated s op := by
    cases op with
    | setGlobalBits u bits =>
        simp only [Slot.operated]
        split
        · rfl
        · split <;> rfl
    | setLocal u unit events =>
        by_cases h : u = t <;> by_cases hcode : code = unit <;>
          simp [Slot.operated, Operation.armsLocally?, Operation.wipes, h, hcode, eq_comm,
            localSet_setLocal]
    | restart => rfl
    | _ u =>
        by_cases h : u = t <;>
          simp [Slot.operated, Operation.armsLocally?, Operation.wipes, h, Slot.vacant, clear,
            setCallback, setGlobal]

theorem follows_callback? (t : Tool) (e : Event) :
    Follows t (callback? · e) none (Operation.installs? t e) (Operation.wipes t) where
  vacant := callback?_vacant e
  enabled _ := rfl
  operated s op := by
    cases op with
    | setGlobalBits u bits =>
        simp only [Slot.operated]
        split
        · rfl
        · split <;> rfl
    | register u f callback =>
        by_cases h : u = t <;> by_cases hevent : f = e <;>
          simp [Slot.operated, Operation.installs?, Operation.wipes, h, hevent,
            callback?_setCallback]
    | free u | clear u =>
        by_cases h : u = t <;> simp [Slot.operated, Operation.installs?, Operation.wipes, h]
    | restart => rfl
    | _ u =>
        by_cases h : u = t <;>
          simp [Slot.operated, Operation.installs?, Operation.wipes, h, setGlobal, setLocal,
            callback?]

end Slot

/-! ### What a history leaves -/

namespace Operation

variable (t : Tool) (history : List Operation)

/-- The name of the last claim, unless the slot was given back since. -/
def lastOwner : Option String := (standing (owner? t) (frees t) history).getD none

/-- The events that were armed everywhere last, unless the slot was given back or cleared since. -/
def lastGlobal : EventSet := (standing (armsGlobally? t) (wipes t) history).getD ∅

/-- The events that were armed in a code unit last, unless the slot was given back or cleared
since. -/
def lastLocal (code : CodeId) : EventSet :=
  (standing (armsLocally? t code) (wipes t) history).getD ∅

/-- The callback that was registered last, unless the slot was given back or cleared since. -/
def lastCallback (e : Event) : Option Callback :=
  (standing (installs? t e) (wipes t) history).getD none

/-- The tool has armed an event, everywhere or in a code unit. -/
def HasArmed (e : Event) : Prop :=
  (lastGlobal t history).has e = true ∨ ∃ code, (lastLocal t history code).has e = true

end Operation

/-- **The registry has the content that a history has left**: this is what is read of it, and the
callback that is replaced by another one. -/
structure Registry.Recalls (r : Registry) (history : List Operation) : Prop where
  owner : ∀ t, (r.slot t).owner = Operation.lastOwner t history
  globalEvents : ∀ t, (r.slot t).globalEvents = Operation.lastGlobal t history
  localEvents : ∀ t code, (r.slot t).localSet code = Operation.lastLocal t history code
  callback : ∀ t e, (r.slot t).callback? e = Operation.lastCallback t history e
  /-- The callback that is replaced is the one that was registered last. -/
  replaced : ∀ t e callback previous, (r.apply (.register t e callback)).2 = .ok previous →
    previous = Operation.lastCallback t history e
  /-- An event is listed once, if some tool has armed it. -/
  listed : (r.allEvents.map Prod.fst).Nodup ∧
    ∀ e, e ∈ r.allEvents.map Prod.fst ↔ ∃ t, Operation.HasArmed t history e
  /-- It is listed with exactly the tools that have armed it. -/
  listedWith : ∀ row ∈ r.allEvents, ∀ t, row.2.has t = true ↔ Operation.HasArmed t history row.1

/-- The operation that the next step makes, if it is accepted. -/
def State.accepted? (s : State σ) : Option Operation :=
  match s.mutation? with
  | some (.operate op) => some op
  | _ => none

namespace Machine

/-- One step more of the run is one operation more of the history, or none. -/
theorem read_advance {β : Type} {t : Tool} {read : Slot → β} {blank : β}
    {write : Operation → Option β} {erases : Operation → Bool}
    (h : Slot.Follows t read blank write erases) {m : Machine σ} {s : State σ}
    (hs : s.world.registry.Reachable) :
    read ((m.advance s).world.registry.slot t) =
      s.accepted?.elim (read (s.world.registry.slot t)) fun op =>
        (write op).getD (if erases op then blank else read (s.world.registry.slot t)) := by
  cases hmutation : s.mutation? with
  | none => rw [registry_advance_of_none hmutation, State.accepted?, hmutation, Option.elim_none]
  | some c =>
      obtain ⟨hchange, hadmits⟩ := Option.filter_eq_some_iff.1 hmutation
      rw [m.registry_advance, hchange, Option.elim_some, State.accepted?, hmutation]
      cases c with
      | operate op =>
          rw [Registry.after, ← h.enabled, Registry.enabled_slot_apply hs hadmits, h.enabled,
            h.operated, Option.elim_some]
      | disable u site =>
          rw [Registry.after, ← h.enabled, Registry.enabled_slot_disable, h.enabled,
            Option.elim_none]

/-- What is read of a slot is what stands after the history of the run. -/
theorem read_states {β : Type} {t : Tool} {read : Slot → β} {blank : β}
    {write : Operation → Option β} {erases : Operation → Bool}
    (h : Slot.Follows t read blank write erases) (m : Machine σ) {s : State σ}
    (hs : s.world.registry = .empty) (n : ℕ) :
    read ((m.states s n).world.registry.slot t) =
      (standing write erases (m.observed State.accepted? s n)).getD blank := by
  induction n with
  | zero =>
      rw [states_zero, hs, Registry.slot_empty]
      exact h.vacant
  | succ n ih =>
      have hreachable : (m.states s n).world.registry.Reachable := by
        refine m.reachable_states ?_ n
        rw [hs]
        exact .empty
      rw [states_succ, read_advance h hreachable, observed_add, observed_one, ih]
      cases (m.states s n).accepted? with
      | none => simp
      | some op =>
          rw [Option.elim_some, Option.toList_some, standing_concat]
          cases write op with
          | some b => rfl
          | none =>
              rw [Option.none_or, Option.getD_none]
              split <;> rfl

/-- **The registry recalls the history of the run.**  In every state of a run from the empty
registry, what is read of it is what the operations have left that were accepted so far, whether
they came from outside or from callbacks. -/
theorem registry_recalls (m : Machine σ) (heap : Heap) (memory : σ) (script : Script σ) (n : ℕ) :
    (m.states (.initial ⟨.empty, heap, memory⟩ script) n).world.registry.Recalls
      (m.observed State.accepted? (.initial ⟨.empty, heap, memory⟩ script) n) := by
  have hreachable := m.reachable_states (s := .initial ⟨.empty, heap, memory⟩ script) .empty n
  have hglobal := fun t => read_states (Slot.follows_globalEvents t) m
    (s := .initial ⟨.empty, heap, memory⟩ script) rfl n
  have hlocal := fun t code => read_states (Slot.follows_localSet t code) m
    (s := .initial ⟨.empty, heap, memory⟩ script) rfl n
  have hcallback := fun t e => read_states (Slot.follows_callback? t e) m
    (s := .initial ⟨.empty, heap, memory⟩ script) rfl n
  have harms : ∀ t e, ((m.states (.initial ⟨.empty, heap, memory⟩ script) n).world.registry.slot
      t).Arms e ↔ Operation.HasArmed t
        (m.observed State.accepted? (.initial ⟨.empty, heap, memory⟩ script) n) e := fun t e => by
    rw [Slot.Arms, hglobal t, Operation.HasArmed]
    exact or_congr_right (exists_congr fun code => by rw [hlocal t code, Operation.lastLocal])
  refine
    { owner := fun t => read_states (Slot.follows_owner t) m rfl n
      globalEvents := hglobal
      localEvents := hlocal
      callback := hcallback
      replaced := ?_
      listed := ?_
      listedWith := ?_ }
  · intro t e callback previous h
    rw [Registry.eq_callback?_of_register h]
    exact hcallback t e
  · refine ⟨Registry.nodup_allEvents _, fun e => ?_⟩
    rw [Registry.mem_allEvents]
    exact exists_congr fun t => harms t e
  · intro row hrow t
    rw [Registry.has_of_mem_allEvents hrow]
    exact harms t row.1

end Machine

end Tracepoint
