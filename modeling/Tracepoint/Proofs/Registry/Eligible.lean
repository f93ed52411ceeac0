/-
**Who gets a report.**

A tool gets the reports of an event at a place if the event is delivered to it in the code unit, it
has a callback for the event, and no disabled site silences it.  On top of that a report is opened
only if its event is in the union of armed events, which the registry keeps beside the tables.  The
union is brought up to date after every accepted operation, and neither a disabling nor a restart
changes what is armed, so that it is always the union of what the slots hold.

Main definitions:

* `Tracepoint.Site.Covers` — a disabled site silences another one.

Main results:

* `Tracepoint.Registry.target?_eq_some` — what it means that a tool is chosen;
* `Tracepoint.Registry.targets_ascending` — those who get a report come in the order of their slots;
* `Tracepoint.Slot.isDisabled_iff` — a site is disabled if a disabled one silences it;
* `Tracepoint.Registry.Reachable.armed_eq` — **the union that is kept is up to date**;
* `Tracepoint.Registry.Reachable.mem_dispatch_of_enabled` — what is not disabled for a tool is
  delivered to it.
-/

import Tracepoint.Proofs.Registry.Change
import Tracepoint.Registry.Delivery

set_option relaxedAutoImplicit false
set_option autoImplicit false

namespace Tracepoint

/-! ### Who is chosen -/

namespace Registry

/-- A tool is chosen with its callback for the event, if the event is delivered to it in the code
unit and not disabled at the place. -/
theorem target?_eq_some {r : Registry} {t : Tool} {site : Site} {c : Callback} :
    r.target? t site = some c ↔
      ((r.slot t).effective site.code).has site.event = true ∧
        (r.slot t).isDisabled site = false ∧ (r.slot t).callback? site.event = some c := by
  rw [target?_eq, Slot.target?]
  split
  · rename_i h
    simp only [Bool.and_eq_true, Bool.not_eq_true'] at h
    simp [h.1, h.2]
  · rename_i h
    simp only [Bool.and_eq_true, Bool.not_eq_true', not_and] at h
    simp only [reduceCtorEq, false_iff, not_and]
    intro he hd
    exact absurd hd (h he)

theorem mem_targets {r : Registry} {t : Tool} {site : Site} {c : Callback} :
    (t, c) ∈ r.targets site ↔ r.target? t site = some c := by
  simp [targets, Tool.mem_all]

/-- The tools that an event at a place goes to are asked in the order of their slots. -/
theorem targets_ascending (r : Registry) (site : Site) :
    ((r.targets site).map Prod.fst).Pairwise (· < ·) := by
  have hall : Tool.all.Pairwise (· < ·) := by decide
  have hself : ∀ t : Tool, ((r.target? t site).map fun c => (t, c)).map Prod.fst =
      Option.guard (fun t => (r.target? t site).isSome) t := by
    intro t
    cases h : r.target? t site <;> simp [Option.guard, h]
  have hsublist : ((r.targets site).map Prod.fst).Sublist Tool.all := by
    rw [targets, List.map_filterMap]
    simp only [hself, List.filterMap_eq_filter]
    exact List.filter_sublist
  exact hall.sublist hsublist

/-- Those that an occurrence goes to are, in this order, tools in lower slots, the tool, and tools
in higher slots. -/
theorem targets_split {r : Registry} {site : Site} {A : Tool} {c : Callback}
    (h : r.target? A site = some c) :
    ∃ front back, r.targets site = front ++ (A, c) :: back ∧
      (∀ target ∈ front, target.1 < A) ∧ ∀ target ∈ back, A < target.1 := by
  obtain ⟨front, back, hsplit⟩ := List.append_of_mem (mem_targets.2 h)
  have hsorted := List.pairwise_map.1 (r.targets_ascending site)
  rw [hsplit, List.pairwise_append, List.pairwise_cons] at hsorted
  obtain ⟨-, ⟨hhigher, -⟩, hlower⟩ := hsorted
  exact ⟨front, back, hsplit,
    fun target ht => hlower target ht (A, c) (List.mem_cons_self ..), hhigher⟩

end Registry

/-- A callback that is chosen is registered, if that of the snapshot is. -/
theorem Dispatch.callback?_of_choose {r : Registry} {d : Dispatch} {t : Tool} {c c' : Callback}
    (hc : (r.slot t).callback? d.occurrence.event = some c) (h : d.choose r t c = some c') :
    (r.slot t).callback? d.occurrence.event = some c' := by
  unfold choose at h
  split at h
  · exact hc.trans h
  · exact (Registry.target?_eq_some.1 h).2.2

/-- A tool that the registry would choose is chosen with the same callback from a snapshot that has
it. -/
theorem Dispatch.choose_of_target? {r : Registry} {d : Dispatch} {t : Tool} {c : Callback}
    (h : r.target? t d.occurrence.site = some c) : d.choose r t c = some c := by
  unfold choose
  split
  · rfl
  · exact h

/-! ### What a disabled site silences -/

/-- A site silences another one if it is the same place, and the same event or the one that the
other accompanies. -/
structure Site.Covers (entry site : Site) : Prop where
  code : entry.code = site.code
  offset : entry.offset = site.offset
  event : entry.event = site.event ∨ site.event.parent? = some entry.event

/-- A site is disabled if one of the disabled sites silences it. -/
theorem Slot.isDisabled_iff {s : Slot} {site : Site} :
    s.isDisabled site = true ↔ ∃ entry ∈ s.disabled, entry.Covers site := by
  obtain ⟨event, code, offset⟩ := site
  simp only [isDisabled, Bool.or_eq_true, Std.ExtTreeSet.contains_iff_mem, Option.any_eq_true]
  constructor
  · rintro (h | ⟨parent, hp, h⟩)
    · exact ⟨_, h, rfl, rfl, Or.inl rfl⟩
    · exact ⟨_, h, rfl, rfl, Or.inr hp⟩
  · rintro ⟨⟨e, c, o⟩, h, rfl, rfl, rfl | hp⟩
    · exact Or.inl h
    · exact Or.inr ⟨e, hp, h⟩

/-! ### The union of armed events -/

/-- What is delivered in a code unit is delivered for what is armed somewhere. -/
theorem Slot.delivers_of_effective {s : Slot} {code : CodeId} {e : Event}
    (h : (s.effective code).has e = true) : s.Delivers e := by
  have harms : ∀ f, (s.globalEvents ∪ s.localSet code).has f = true → s.Arms f := fun f hf => by
    rw [EventSet.has_union, Bool.or_eq_true] at hf
    exact hf.imp_right fun hlocal => ⟨code, hlocal⟩
  rw [effective, EventSet.has_delivered, Bool.or_eq_true, Bool.and_eq_true] at h
  exact h.imp (harms e) fun hcall => ⟨harms .call hcall.1, hcall.2⟩

namespace Registry

/-- **The union that is kept is up to date**, whatever has happened. -/
theorem Reachable.armed_eq {r : Registry} (h : r.Reachable) : r.armed = r.tables.armed := by
  induction h with
  | empty => rfl
  | @after r _ c ih =>
      cases c with
      | operate op =>
          rw [Registry.after]
          rcases r.apply_cases op with ⟨-, hr⟩ | ⟨-, out⟩
          · rw [hr]
            exact ih
          · generalize (r.apply op).1 = r' at out ⊢
            cases out with
            | restart => exact ih
            | _ => rfl
      | disable t site =>
          rw [Registry.after, armed_disable, ih]
          unfold disable
          dsimp only
          split <;> rfl

/-- An event that is delivered to a tool in some code unit is armed. -/
theorem Reachable.isArmed_of_effective {r : Registry} (h : r.Reachable) {t : Tool} {code : CodeId}
    {e : Event} (he : ((r.slot t).effective code).has e = true) : r.isArmed e = true := by
  rw [isArmed, h.armed_eq, Tables.has_armed_iff]
  exact ⟨t, Slot.delivers_of_effective he⟩

/-- What is not disabled for a tool is delivered to it when it has a callback. -/
theorem Reachable.mem_dispatch_of_enabled {r : Registry} (h : r.Reachable) {t : Tool}
    {o : Occurrence} {c : Callback}
    (he : ((r.slot t).effective o.payload.code).has o.event = true)
    (hc : (r.slot t).callback? o.event = some c)
    (hd : ∀ site ∈ (r.slot t).disabled, ¬ site.Covers o.site) :
    r.isArmed o.event = true ∧ (t, c) ∈ (r.dispatch o).pending := by
  refine ⟨h.isArmed_of_effective he, mem_targets.2 (target?_eq_some.2 ?_)⟩
  refine ⟨he, ?_, hc⟩
  rw [Bool.eq_false_iff, Ne, Slot.isDisabled_iff]
  rintro ⟨site, hsite, hcovers⟩
  exact hd site hsite hcovers

end Registry

end Tracepoint
