/-
**An operation concerns one slot.**

The slots share a table of code units and a union of armed events, and when the last owner gives a
slot back, all that is kept by code unit is forgotten at once.  All the same, an operation that is
addressed to a tool is a matter of the slot of this tool: what it does there and what is replied
depends on nothing but the slot, and the other slots stay as they are.

For the last owner's slot this is so because the other ones, which have no owners, have nothing left
to be forgotten.  It is different if something is disabled in a slot without an owner, as then it is
lifted together with the rest; a registry in which this is not the case is *clean*.

Main definitions:

* `Tracepoint.Operation.tool?` — the tool that an operation is addressed to;
* `Tracepoint.Registry.Clean` — slots without owners are empty.

Main results:

* `Tracepoint.Registry.Clean.apply` — operations leave a registry clean;
* `Tracepoint.Registry.slot_apply_of_ne` — **the slots of other tools stay as they are**;
* `Tracepoint.Registry.apply_congr` — **the slot decides** what comes of an operation.
-/

import Tracepoint.Proofs.Registry.Change

set_option relaxedAutoImplicit false
set_option autoImplicit false

namespace Tracepoint

/-- The tool that an operation is addressed to.  To report again what is disabled is not asked of
any tool in particular. -/
def Operation.tool? : Operation → Option Tool
  | .claim t _ | .free t | .clear t | .register t _ _ | .setGlobal t _ | .setGlobalBits t _
  | .setLocal t _ _ => some t
  | .restart => none

namespace Registry

/-! ### Clean registries -/

/-- A registry is **clean** if slots without owners are empty. -/
def Clean (r : Registry) : Prop := ∀ t, (r.slot t).inUse = false → r.slot t = .vacant

theorem clean_empty : Registry.empty.Clean := fun t _ => slot_empty t

/-- Slots without owners are empty if nothing is disabled in them. -/
theorem Reachable.clean_of_enabled {r : Registry} (h : r.Reachable)
    (henabled : ∀ t, (r.slot t).inUse = false → ∀ site, site ∉ (r.slot t).disabled) :
    r.Clean := by
  intro t ht
  have hnone : (r.slot t).disabled = ∅ := Std.ExtTreeSet.ext_mem fun site =>
    iff_of_false (henabled t ht site) Std.ExtTreeSet.not_mem_empty
  rw [h.isBare t ht, hnone]
  rfl

/-- **Operations leave a registry clean.** -/
theorem Clean.apply {r : Registry} (h : r.Clean) (hr : r.Reachable) (op : Operation) :
    (r.apply op).1.Clean := by
  have hafter : (r.apply op).1.Reachable := hr.after (.operate op)
  refine hafter.clean_of_enabled fun t ht site => ?_
  rw [mem_disabled_apply]
  rintro ⟨hsite, hkept⟩
  -- the slot had an owner before, as something was disabled, and so it was given back
  cases hu : (r.slot t).inUse with
  | true =>
      have hfreed : r.frees t op := Classical.byContradiction fun hnot => by
        rw [(inUse_apply r t op).2 (Or.inr ⟨hu, hnot⟩)] at ht
        cases ht
      obtain ⟨hok, rfl⟩ := hfreed
      exact hkept ⟨hok, Or.inl rfl⟩
  | false =>
      rw [h t hu] at hsite
      exact Std.ExtTreeSet.not_mem_empty hsite

/-- To disable a site for a tool with an owner leaves a registry clean. -/
theorem Clean.disable {r : Registry} (h : r.Clean) {t : Tool} (ht : (r.slot t).inUse = true)
    (site : Site) : (r.disable t site).Clean := by
  intro u hu
  rw [slot_disable] at hu ⊢
  split at hu
  · rename_i htu
    subst htu
    rw [show Slot.inUse { r.slot t with disabled := (r.slot t).disabled.insert site } =
      (r.slot t).inUse from rfl, ht] at hu
    cases hu
  · rename_i htu
    rw [if_neg htu]
    exact h u hu

/-! ### The slots of other tools -/

/-- **The slots of other tools stay as they are.** -/
theorem slot_apply_of_ne {r : Registry} (h : r.Clean) {op : Operation} {t u : Tool}
    (hop : op.tool? = some t) (htu : t ≠ u) : (r.apply op).1.slot u = r.slot u := by
  rcases r.apply_cases op with ⟨-, hr⟩ | ⟨-, out⟩
  · rw [hr]
  · generalize (r.apply op).1 = r' at out ⊢
    cases out with
    | restart => cases hop
    | @freeLast v _ owned alone puts =>
        cases hop
        -- the slot has no owner, so that there is nothing to be forgotten
        have hvacant : r.slot u = .vacant := h u (alone u htu.symm)
        rw [slot_publish, Tables.slot_forgetCode, puts.slot, if_neg htu, slot_tables, hvacant]
        rfl
    | _ =>
        rename_i puts
        cases hop
        rw [slot_publish, puts.slot, if_neg htu, slot_tables]

/-! ### The slot of the tool -/

/-- Two operations come to the same for a tool: they get the same reply and leave the same slot. -/
def SameFor (t : Tool) (out out' : Registry × Except MonitorError (Option Callback)) : Prop :=
  out'.2 = out.2 ∧ out'.1.slot t = out.1.slot t

section SameFor

variable {r r' : Registry} {t : Tool}

/-- The same refusal leaves the same slot, if nothing is changed. -/
theorem sameFor_refused (h : r'.slot t = r.slot t) (e : MonitorError) :
    SameFor t (r, .error e) (r', .error e) := ⟨rfl, h⟩

/-- The same new content is put into the slot. -/
theorem sameFor_published {tables tables' : Tables} {s : Slot} (puts : r.tables.Puts t s tables)
    (puts' : r'.tables.Puts t s tables') (previous : Option Callback) :
    SameFor t (r.publish tables, .ok previous) (r'.publish tables', .ok previous) := by
  refine ⟨rfl, ?_⟩
  rw [slot_publish, slot_publish, puts.slot, puts'.slot, if_pos rfl, if_pos rfl]

/-- A slot that is given back is empty, whether or not it is the last one. -/
theorem slot_freed (r : Registry) (t : Tool) : (r.publish (r.tables.freed t)).slot t = .vacant := by
  have hputs : r.tables.Puts t .vacant ((r.tables.setOwner t none).wipe t) := r.tables.puts_vacant t
  have hslot : ((r.tables.setOwner t none).wipe t).slot t = .vacant := by
    rw [hputs.slot, if_pos rfl]
  rw [slot_publish]
  dsimp only [Tables.freed]
  split
  · rw [Tables.slot_forgetCode, hslot]
    rfl
  · exact hslot

theorem sameFor_setGlobal (h : r'.slot t = r.slot t) (events : EventSet) :
    SameFor t (r.apply (.setGlobal t events)) (r'.apply (.setGlobal t events)) := by
  have hputs' := r'.tables.puts_setGlobal t events
  rw [slot_tables, h] at hputs'
  rw [apply_setGlobal, apply_setGlobal, h]
  split
  · exact sameFor_refused h _
  · split
    · exact sameFor_published (r.tables.puts_setGlobal t events) hputs' none
    · exact sameFor_refused h _

end SameFor

/-- **The slot of a tool decides** what is replied to the operations that are addressed to it, and
what the slot is afterwards. -/
theorem apply_congr {r r' : Registry} {op : Operation} {t : Tool} (hop : op.tool? = some t)
    (h : r'.slot t = r.slot t) :
    (r'.apply op).2 = (r.apply op).2 ∧ (r'.apply op).1.slot t = (r.apply op).1.slot t := by
  show SameFor t (r.apply op) (r'.apply op)
  cases op with
  | restart => cases hop
  | claim u name =>
      cases hop
      have hputs' := r'.tables.puts_setOwner t (some name)
      rw [slot_tables, h] at hputs'
      rw [apply_claim, apply_claim, h]
      cases (r.slot t).owner with
      | some owner => exact sameFor_refused h _
      | none => exact sameFor_published (r.tables.puts_setOwner t _) hputs' none
  | free u =>
      cases hop
      rw [apply_free, apply_free, h]
      split
      · exact ⟨rfl, (r'.slot_freed t).trans (r.slot_freed t).symm⟩
      · exact sameFor_refused h _
  | clear u =>
      cases hop
      have hputs' := r'.tables.puts_wipe t
      rw [slot_tables, h] at hputs'
      rw [apply_clear, apply_clear, h]
      split
      · exact sameFor_published (r.tables.puts_wipe t) hputs' none
      · exact sameFor_refused h _
  | register u e c =>
      cases hop
      have hputs' := r'.tables.puts_setCallback t e c
      rw [slot_tables, h] at hputs'
      cases c with
      | none =>
          rw [apply_register_none, apply_register_none, h]
          exact sameFor_published (r.tables.puts_setCallback ..) hputs' _
      | some c =>
          rw [apply_register_some, apply_register_some, h]
          split
          · split
            · exact sameFor_published (r.tables.puts_setCallback ..) hputs' _
            · exact sameFor_refused h _
          · exact sameFor_refused h _
  | setGlobal u events =>
      cases hop
      exact sameFor_setGlobal h events
  | setGlobalBits u bits =>
      cases hop
      cases hbits : EventSet.ofBits bits with
      | error e =>
          rw [apply_setGlobalBits_of_error r t hbits, apply_setGlobalBits_of_error r' t hbits]
          exact sameFor_refused h _
      | ok events =>
          rw [apply_setGlobalBits_of_ok r t hbits, apply_setGlobalBits_of_ok r' t hbits]
          exact sameFor_setGlobal h events
  | setLocal u code events =>
      cases hop
      have hputs' := r'.tables.puts_setLocal t code events
      rw [slot_tables, h] at hputs'
      rw [apply_setLocal, apply_setLocal, h]
      split
      · exact sameFor_refused h _
      · split
        · exact sameFor_published (r.tables.puts_setLocal ..) hputs' none
        · exact sameFor_refused h _

end Registry

end Tracepoint
