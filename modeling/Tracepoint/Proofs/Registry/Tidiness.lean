/-
**The tables are kept tidy.**

Sets of events are kept without derived events, and a callback takes the payloads of its event.  A
slot of which this is true is *tidy*; as every change puts new content into one slot, or does the
same to all of them, it is enough that each new content is tidy if the old one was.  That no row of
the tables is kept without need goes along with it.

Main definitions:

* `Tracepoint.EventSet.IsPlain` — a set names no derived event;
* `Tracepoint.Slot.Tidy` — what a slot keeps is as it should be.

Main results:

* `Tracepoint.Registry.Reachable.tidy` — **the slots are tidy**, whatever has happened;
* `Tracepoint.Registry.Reachable.packed` — and the tables have no row without events;
* `Tracepoint.Registry.mem_allEvents`, `Tracepoint.Registry.has_of_mem_allEvents` — the table of all
  armed events.
-/

import Tracepoint.Proofs.Registry.Eligible

set_option relaxedAutoImplicit false
set_option autoImplicit false

namespace Tracepoint

/-! ### Sets without derived events -/

namespace EventSet

/-- A set names no derived event, as the sets that are kept. -/
def IsPlain (s : EventSet) : Prop := ∀ e, s.has e = true → e.isDerived = false

theorem isPlain_empty : IsPlain ∅ := by
  intro e h
  rw [has_empty] at h
  cases h

theorem isPlain_stored (s : EventSet) : s.stored.IsPlain := by
  intro e h
  rw [has_stored, Bool.and_eq_true, Bool.not_eq_true'] at h
  exact h.2

/-- A derived event is delivered for a set without derived events if its parent is in the set. -/
theorem IsPlain.has_delivered {s : EventSet} (h : s.IsPlain) (e : Event) :
    s.delivered.has e = s.has e.gate := by
  rw [EventSet.has_delivered]
  cases hp : e.parent? with
  | none => simp [Event.isDerived, Event.gate, hp]
  | some parent =>
      have hcall : parent = .call := by cases e <;> cases hp <;> rfl
      have hnot : s.has e = false := by
        rw [← Bool.not_eq_true]
        intro he
        have hplain := h e he
        simp [Event.isDerived, hp] at hplain
      simp [Event.isDerived, Event.gate, hp, hnot, hcall]

end EventSet

/-! ### Tidy slots -/

namespace Slot

/-- A slot is **tidy** if its sets name no derived events and each callback takes the payloads of
its event. -/
structure Tidy (s : Slot) : Prop where
  globalPlain : s.globalEvents.IsPlain
  localPlain : ∀ code, (s.localSet code).IsPlain
  shape : ∀ e c, s.callback? e = some c → c.shape = e.shape

theorem tidy_vacant : vacant.Tidy where
  globalPlain := EventSet.isPlain_empty
  localPlain _ := EventSet.isPlain_empty
  shape e c h := by
    rw [callback?_vacant] at h
    cases h

section Tidy

variable {s : Slot}

/-- Neither the owner nor the disabled sites matter. -/
theorem Tidy.frame (h : s.Tidy) (owner : Option String) (disabled : SiteSet) :
    Tidy { s with owner, disabled } :=
  ⟨h.globalPlain, h.localPlain, h.shape⟩

theorem Tidy.forgetCode (h : s.Tidy) : s.forgetCode.Tidy :=
  ⟨h.globalPlain, fun _ => EventSet.isPlain_empty, h.shape⟩

theorem Tidy.setCallback (h : s.Tidy) {e : Event} {c : Option Callback}
    (hc : ∀ d, c = some d → d.shape = e.shape) : (s.setCallback e c).Tidy where
  globalPlain := h.globalPlain
  localPlain := h.localPlain
  shape f d hd := by
    rw [callback?_setCallback] at hd
    split at hd
    · rename_i hef
      rw [← hef]
      exact hc d hd
    · exact h.shape f d hd

theorem Tidy.setGlobal (h : s.Tidy) (events : EventSet) : (s.setGlobal events).Tidy :=
  ⟨events.isPlain_stored, h.localPlain, h.shape⟩

theorem Tidy.setLocal (h : s.Tidy) (code : CodeId) (events : EventSet) :
    (s.setLocal code events).Tidy := by
  refine ⟨h.globalPlain, fun other => ?_, h.shape⟩
  rw [localSet_setLocal]
  split
  · exact events.isPlain_stored
  · exact h.localPlain other

/-- What is armed somewhere is no derived event. -/
theorem Tidy.isDerived_of_arms (h : s.Tidy) {e : Event} (he : s.Arms e) : e.isDerived = false :=
  he.elim (h.globalPlain e) fun ⟨code, he⟩ => h.localPlain code e he

/-- An event is delivered if it is armed somewhere, or the event that it accompanies is. -/
theorem Tidy.delivers_iff (h : s.Tidy) (e : Event) : s.Delivers e ↔ s.Arms e.gate := by
  cases hp : e.parent? with
  | none => simp [Delivers, Event.isDerived, Event.gate, hp]
  | some parent =>
      have hcall : parent = .call := by cases e <;> cases hp <;> rfl
      have hnot : ¬ s.Arms e := fun he => by
        have hplain := h.isDerived_of_arms he
        simp [Event.isDerived, hp] at hplain
      simp [Delivers, Event.isDerived, Event.gate, hp, hnot, hcall]

end Tidy

end Slot

/-! ### The table of all armed events -/

namespace Registry

/-- The events with tools that have armed them are those that some tool has armed somewhere. -/
theorem mem_allEvents {r : Registry} {e : Event} :
    e ∈ r.allEvents.map Prod.fst ↔ ∃ t, (r.slot t).Arms e := by
  have hrow : ∀ f : Event,
      (ToolSet.filter fun t => (r.tables.anywhere t).has f).isEmpty = false ↔
        ∃ t, (r.slot t).Arms f := fun f => by
    rw [← Bool.not_eq_true, ToolSet.isEmpty_iff]
    simp [Tables.has_anywhere_iff, ← Bool.not_eq_true]
  rw [← hrow]
  simp only [allEvents, List.mem_map, List.mem_filter, Bool.not_eq_true']
  constructor
  · rintro ⟨row, ⟨⟨f, -, rfl⟩, hne⟩, rfl⟩
    exact hne
  · exact fun hne => ⟨_, ⟨⟨e, e.mem_all, rfl⟩, hne⟩, rfl⟩

/-- No event is listed twice. -/
theorem nodup_allEvents (r : Registry) : (r.allEvents.map Prod.fst).Nodup := by
  have hall : Event.all.Nodup := by decide
  have hevents : (Event.all.map fun e =>
      (e, ToolSet.filter fun t => (r.tables.anywhere t).has e)).map Prod.fst = Event.all := by
    rw [List.map_map]
    exact List.map_id _
  rw [← hevents] at hall
  exact hall.sublist (List.filter_sublist.map Prod.fst)

/-- An event is listed with the tools that have armed it somewhere. -/
theorem has_of_mem_allEvents {r : Registry} {row : Event × ToolSet} (h : row ∈ r.allEvents)
    (t : Tool) : row.2.has t = true ↔ (r.slot t).Arms row.1 := by
  obtain ⟨hrow, -⟩ := List.mem_filter.1 h
  obtain ⟨e, -, rfl⟩ := List.mem_map.1 hrow
  rw [ToolSet.has_filter, Tables.has_anywhere_iff, slot_tables]

/-! ### Tidy registries -/

theorem Outcome.tidy {r r' : Registry} {op : Operation} (out : Outcome r op r')
    (h : ∀ t, (r.slot t).Tidy) (t : Tool) : (r'.slot t).Tidy := by
  have key : ∀ {u : Tool} {s : Slot} {tables : Tables}, r.tables.Puts u s tables → s.Tidy →
      (tables.slot t).Tidy := by
    intro u s tables puts hs
    rw [puts.slot]
    split
    · exact hs
    · exact h t
  cases out with
  | claim _ puts => exact key puts ((h _).frame ..)
  | free _ _ puts => exact key puts Slot.tidy_vacant
  | freeLast _ _ puts =>
      rw [slot_publish, Tables.slot_forgetCode]
      exact (key puts Slot.tidy_vacant).forgetCode
  | clear _ puts => exact key puts (Slot.tidy_vacant.frame _ ∅)
  | unregister puts => exact key puts ((h _).setCallback nofun)
  | register shape _ puts =>
      refine key puts ((h _).setCallback fun d hd => ?_)
      cases hd
      exact shape
  | setGlobal _ _ puts | setGlobalBits _ _ _ puts => exact key puts ((h _).setGlobal _)
  | setLocal _ _ puts => exact key puts ((h _).setLocal _ _)
  | restart =>
      rw [slot_restart]
      exact (h t).frame _ ∅

/-- **The slots are tidy**, whatever has happened. -/
theorem Reachable.tidy {r : Registry} (h : r.Reachable) (t : Tool) : (r.slot t).Tidy := by
  induction h generalizing t with
  | empty =>
      rw [slot_empty]
      exact Slot.tidy_vacant
  | @after r _ c ih =>
      cases c with
      | operate op =>
          rw [Registry.after]
          rcases r.apply_cases op with ⟨-, hr⟩ | ⟨-, out⟩
          · rw [hr]
            exact ih t
          · exact out.tidy ih t
      | disable u site =>
          rw [Registry.after, slot_disable]
          split
          · exact (ih t).frame ..
          · exact ih t

/-! ### Packed tables -/

theorem Outcome.packed {r r' : Registry} {op : Operation} (out : Outcome r op r')
    (h : r.tables.Packed) : r'.tables.Packed := by
  cases out with
  | freeLast => exact Tables.packed_forgetCode _
  | restart => exact h
  | _ =>
      rename_i puts
      exact puts.packed h

/-- **No row is kept without need**, whatever has happened. -/
theorem Reachable.packed {r : Registry} (h : r.Reachable) : r.tables.Packed := by
  induction h with
  | empty => exact Tables.packed_empty
  | @after r _ c ih =>
      cases c with
      | operate op =>
          rw [Registry.after]
          rcases r.apply_cases op with ⟨-, hr⟩ | ⟨-, out⟩
          · rw [hr]
            exact ih
          · exact out.packed ih
      | disable u site =>
          show (r.disable u site).tables.Packed
          unfold disable
          dsimp only
          split <;> exact ih

end Registry

end Tracepoint
