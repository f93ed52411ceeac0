/-
**How the registry changes.**

The registry changes in two ways: by an operation, and by the disabling of a site when a callback
has asked for that.  The two together are the *changes*.  A run of the machine is a sequence of
changes as far as the registry is concerned, so that what holds after every change holds always.

Main definitions:

* `Tracepoint.Registry.claims`, `Tracepoint.Registry.frees` — the operations by which a slot gets
  and loses its owner;
* `Tracepoint.Registry.lifts` — the operations that lift what is disabled for a tool;
* `Tracepoint.Registry.HasOnly` — only callbacks of a kind are registered;
* `Tracepoint.Change`, `Tracepoint.Registry.after` — the changes, and the registry after one;
* `Tracepoint.Registry.Reachable` — the registries that changes lead to from the empty one.

Main results:

* `Tracepoint.Registry.inUse_apply` — which slots have an owner after an operation;
* `Tracepoint.Registry.mem_disabled_apply` — **the disabled sites of a tool disappear all at
  once**, and by the operations that lift them only;
* `Tracepoint.Registry.callback?_apply` — where a registered callback comes from;
* `Tracepoint.Registry.after_eq_or_lt` — **a registry that has changed has a larger version**;
* `Tracepoint.Registry.Reachable.isBare` — a slot without an owner keeps nothing but disabled
  sites.
-/

import Tracepoint.Proofs.Registry.Outcome

set_option relaxedAutoImplicit false
set_option autoImplicit false

namespace Tracepoint

namespace Registry

/-! ### Owners -/

def claims (r : Registry) (t : Tool) (op : Operation) : Prop :=
  (r.apply op).2.isOk = true ∧ ∃ name, op = .claim t name

def frees (r : Registry) (t : Tool) (op : Operation) : Prop :=
  (r.apply op).2.isOk = true ∧ op = .free t

/-- What the new content of a slot has in common with the old one, all slots keep. -/
theorem congr_puts {α : Type} (f : Slot → α) {r : Registry} {tables : Tables} {u : Tool} {s : Slot}
    (puts : r.tables.Puts u s tables) (h : f s = f (r.slot u)) (t : Tool) :
    f (tables.slot t) = f (r.slot t) := by
  rw [puts.slot]
  split
  · rename_i hut
    rw [← hut, h]
  · rfl

/-- A slot has an owner after an operation if it was taken, or if it had one and was not given
back. -/
theorem inUse_apply (r : Registry) (t : Tool) (op : Operation) :
    ((r.apply op).1.slot t).inUse = true ↔
      r.claims t op ∨ ((r.slot t).inUse = true ∧ ¬ r.frees t op) := by
  rcases r.apply_cases op with ⟨hok, hr⟩ | ⟨hok, hr⟩
  · simp [claims, frees, hok, hr]
  · generalize (r.apply op).1 = r' at hr ⊢
    cases hr with
    | @claim u name tables vacancy puts =>
        rw [slot_publish, puts.slot]
        by_cases hut : u = t
        · subst hut
          simp [claims, hok, Slot.inUse]
        · simp [claims, frees, hut]
    | @free u tables owned others puts =>
        rw [slot_publish, puts.slot]
        by_cases hut : u = t
        · subst hut
          simp [claims, frees, hok]
        · simp [claims, frees, hut]
    | @freeLast u tables owned alone puts =>
        rw [slot_publish, Tables.slot_forgetCode, puts.slot]
        by_cases hut : u = t
        · subst hut
          simp [claims, frees, hok]
        · simp [claims, frees, hut]
    | restart => simp [claims, frees, Slot.inUse]
    | _ =>
        rename_i puts
        rw [slot_publish, congr_puts Slot.inUse puts (by simp)]
        simp [claims, frees]

/-! ### Disabled sites -/

/-- What is disabled for a tool is lifted by an operation: everything is reported again, or the
slot is given back or cleared, or the last slot is given back. -/
def lifts (r : Registry) (t : Tool) (op : Operation) : Prop :=
  (r.apply op).2.isOk = true ∧
    match op with
    | .restart => True
    | .free u => u = t ∨ ∀ v, ((r.apply op).1.slot v).inUse = false
    | .clear u => u = t
    | _ => False

/-- **An operation lifts all that is disabled for a tool or leaves it.** -/
theorem mem_disabled_apply (r : Registry) (t : Tool) (op : Operation) (site : Site) :
    site ∈ ((r.apply op).1.slot t).disabled ↔ site ∈ (r.slot t).disabled ∧ ¬ r.lifts t op := by
  rcases r.apply_cases op with ⟨hok, hr⟩ | ⟨hok, hr⟩
  · simp [lifts, hok, hr]
  · generalize hr' : (r.apply op).1 = r' at hr ⊢
    cases hr with
    | @free u tables owned others puts =>
        -- some slot stays in use, so that only the slot that is given back loses its sites
        obtain ⟨v, hvu, hv⟩ := others
        have hkept : (tables.slot v).inUse = true := by
          rw [puts.slot, if_neg hvu.symm]
          exact hv
        rw [slot_publish, puts.slot]
        by_cases hut : u = t
        · subst hut
          simp [lifts, hok]
        · have : ¬ ∀ v, ((r.apply (.free u)).1.slot v).inUse = false := fun h => by
            simpa [hr', hkept] using h v
          simp [lifts, hut, this]
    | @freeLast u tables owned alone puts =>
        have : ∀ v, ((r.apply (.free u)).1.slot v).inUse = false := fun v => by
          rw [hr', slot_publish, Tables.slot_forgetCode, Slot.inUse_forgetCode, puts.slot]
          split
          · rfl
          · rename_i huv
            exact alone v fun hvu => huv hvu.symm
        simp [lifts, hok, this]
    | @clear u tables owned puts =>
        rw [slot_publish, puts.slot]
        by_cases hut : u = t
        · subst hut
          simp [lifts, hok]
        · simp [lifts, hut]
    | restart => simp [lifts, hok]
    | _ =>
        rename_i puts
        rw [slot_publish, congr_puts Slot.disabled puts (by simp)]
        simp [lifts]

/-- To disable a site adds it to the sites of the tool and changes no slot otherwise. -/
theorem slot_disable (r : Registry) (t u : Tool) (site : Site) :
    (r.disable t site).slot u =
      if t = u then { r.slot u with disabled := (r.slot u).disabled.insert site }
      else r.slot u := by
  by_cases h : (r.slot t).disabled.contains site
  · have hr : r.disable t site = r := if_pos h
    rw [hr]
    split
    · rename_i htu
      subst htu
      rw [SiteSet.insert_of_mem (Std.ExtTreeSet.contains_iff_mem.1 h)]
    · rfl
  · have hr : r.disable t site = { r with
        tables := r.tables.setDisabled t ((r.slot t).disabled.insert site)
        version := r.version + 1 } := if_neg h
    have hputs := r.tables.puts_setDisabled t
      ((r.slot t).disabled.insert site)
    rw [hr]
    refine (hputs.slot u).trans ?_
    split
    · rename_i htu
      subst htu
      rfl
    · rfl

theorem callback?_disable (r : Registry) (t u : Tool) (site : Site) (e : Event) :
    ((r.disable t site).slot u).callback? e = (r.slot u).callback? e := by
  rw [slot_disable]
  split <;> rfl

/-- What is armed is not changed. -/
theorem armed_disable (r : Registry) (t : Tool) (site : Site) :
    (r.disable t site).armed = r.armed := by
  unfold disable
  dsimp only
  split <;> rfl

theorem disable_of_mem {r : Registry} {t : Tool} {site : Site}
    (h : (r.slot t).disabled.contains site = true) : r.disable t site = r := if_pos h

theorem version_disable_of_not_mem {r : Registry} {t : Tool} {site : Site}
    (h : (r.slot t).disabled.contains site = false) :
    (r.disable t site).version = r.version + 1 :=
  congrArg Registry.version (if_neg (Bool.eq_false_iff.1 h))

theorem disable_cases (r : Registry) (t : Tool) (site : Site) :
    r.disable t site = r ∨ (r.disable t site).version = r.version + 1 := by
  cases h : (r.slot t).disabled.contains site with
  | true => exact Or.inl (disable_of_mem h)
  | false => exact Or.inr (version_disable_of_not_mem h)

end Registry

/-! ### Callbacks -/

namespace Registry

/-- A callback that is registered after an operation was registered before or by it. -/
theorem callback?_apply {r : Registry} {t : Tool} {e : Event} {c : Callback} {op : Operation}
    (h : ((r.apply op).1.slot t).callback? e = some c) :
    (r.slot t).callback? e = some c ∨ op = .register t e (some c) := by
  rcases r.apply_cases op with ⟨-, hr⟩ | ⟨-, out⟩
  · rw [hr] at h
    exact Or.inl h
  · generalize (r.apply op).1 = r' at out h
    -- a slot whose new content has no new callback for the event leaves nothing to show
    have kept : ∀ {u : Tool} {s : Slot} {tables : Tables}, r.tables.Puts u s tables →
        (s.callback? e = some c → (r.slot u).callback? e = some c) →
        (tables.slot t).callback? e = some c → (r.slot t).callback? e = some c := by
      intro u s tables puts hs hc
      rw [puts.slot] at hc
      split at hc
      · rename_i hut
        rw [← hut]
        exact hs hc
      · exact hc
    have vacated : ∀ {u : Tool}, Slot.vacant.callback? e = some c →
        (r.slot u).callback? e = some c := by
      intro u hc
      rw [Slot.callback?_vacant] at hc
      cases hc
    cases out with
    | free _ _ puts | clear _ puts => exact Or.inl (kept puts vacated h)
    | freeLast _ _ puts =>
        rw [slot_publish, Tables.slot_forgetCode] at h
        exact Or.inl (kept puts vacated h)
    | @unregister u f _ puts =>
        refine Or.inl (kept puts (fun hc => ?_) h)
        rw [Slot.callback?_setCallback] at hc
        split at hc
        · cases hc
        · exact hc
    | @register u f d _ _ _ puts =>
        by_cases hnew : u = t ∧ f = e
        · obtain ⟨rfl, rfl⟩ := hnew
          rw [slot_publish, puts.slot, if_pos rfl, Slot.callback?_setCallback, if_pos rfl] at h
          exact Or.inr (by rw [h])
        · refine Or.inl ?_
          rw [slot_publish, puts.slot] at h
          split at h
          · rename_i hut
            rw [Slot.callback?_setCallback, if_neg fun hfe => hnew ⟨hut, hfe⟩, hut] at h
            exact h
          · exact h
    | restart =>
        rw [slot_restart] at h
        exact Or.inl h
    | claim _ puts | setGlobal _ _ puts | setGlobalBits _ _ _ puts | setLocal _ _ puts =>
        exact Or.inl (kept puts id h)

def HasOnly (P : Callback → Prop) (r : Registry) : Prop :=
  ∀ t e c, (r.slot t).callback? e = some c → P c

end Registry

/-- An operation registers callbacks of a kind only. -/
def Operation.RegistersOnly (P : Callback → Prop) (op : Operation) : Prop :=
  ∀ t e c, op = .register t e (some c) → P c

namespace Registry

theorem hasOnly_empty (P : Callback → Prop) : HasOnly P .empty := by
  intro t e c h
  rw [slot_empty, Slot.callback?_vacant] at h
  cases h

theorem HasOnly.apply {P : Callback → Prop} {r : Registry} {op : Operation} (h : r.HasOnly P)
    (hop : op.RegistersOnly P) : (r.apply op).1.HasOnly P := by
  intro t e c hc
  rcases callback?_apply hc with hc | hc
  · exact h t e c hc
  · exact hop t e c hc

theorem HasOnly.disable {P : Callback → Prop} {r : Registry} (h : r.HasOnly P) (t : Tool)
    (site : Site) : (r.disable t site).HasOnly P := by
  intro u e c hc
  rw [callback?_disable] at hc
  exact h u e c hc

end Registry

/-! ### Changes -/

/-- A change of the registry. -/
inductive Change where
  /-- Somebody operates on the registry. -/
  | operate (op : Operation)
  /-- The callback of a tool has asked for no further reports from a site. -/
  | disable (tool : Tool) (site : Site)

namespace Registry

/-- The registry after a change. -/
def after (r : Registry) : Change → Registry
  | .operate op => (r.apply op).1
  | .disable t site => r.disable t site

/-- **A registry that has changed has a larger version.** -/
theorem after_eq_or_lt (r : Registry) (c : Change) :
    r.after c = r ∨ r.version < (r.after c).version := by
  cases c with
  | operate op =>
      rcases r.apply_cases op with ⟨-, h⟩ | ⟨-, h⟩
      · exact Or.inl h
      · exact Or.inr (by rw [after, h.version_eq]; omega)
  | disable t site =>
      rcases r.disable_cases t site with h | h
      · exact Or.inl h
      · exact Or.inr (by rw [after, h]; omega)

/-- **The registries that changes lead to**, from the empty one. -/
inductive Reachable : Registry → Prop
  | empty : Reachable .empty
  | after {r : Registry} (h : Reachable r) (c : Change) : Reachable (r.after c)

/-- The registry after a list of operations on the empty one. -/
def operated (ops : List Operation) : Registry := ops.foldl (fun r op => (r.apply op).1) .empty

theorem Reachable.operations {r : Registry} (h : r.Reachable) (ops : List Operation) :
    (ops.foldl (fun r op => (r.apply op).1) r).Reachable := by
  induction ops generalizing r with
  | nil => exact h
  | cons op ops ih => exact ih (h.after (.operate op))

theorem reachable_operated (ops : List Operation) : (operated ops).Reachable :=
  Reachable.empty.operations ops

end Registry

def Slot.IsBare (s : Slot) : Prop :=
  s = { Slot.vacant with disabled := s.disabled }

namespace Slot

theorem isBare_vacant : vacant.IsBare := rfl

theorem IsBare.forgetCode {s : Slot} (h : s.IsBare) : s.forgetCode.IsBare := by
  rw [IsBare] at h ⊢
  rw [h]
  rfl

theorem IsBare.withDisabled {s : Slot} (h : s.IsBare) (sites : SiteSet) :
    IsBare { s with disabled := sites } := by
  rw [IsBare] at h ⊢
  rw [h]

theorem IsBare.unregister {s : Slot} (h : s.IsBare) (e : Event) :
    (s.setCallback e none).IsBare := by
  have hc : s.callbacks.put e none = s.callbacks := by
    rw [h]
    refine Vector.ext fun i hi => ?_
    simp [vacant, CallbackRow.put, CallbackRow.blank]
  rw [setCallback, hc]
  exact h

theorem IsBare.callback?_eq {s : Slot} (h : s.IsBare) (e : Event) : s.callback? e = none := by
  rw [h]
  exact callback?_vacant e

end Slot

namespace Registry

/-- A slot without an owner keeps nothing but disabled sites. -/
theorem Outcome.isBare {r r' : Registry} {op : Operation} (out : Outcome r op r')
    (h : ∀ t, (r.slot t).inUse = false → (r.slot t).IsBare) (t : Tool)
    (ht : (r'.slot t).inUse = false) : (r'.slot t).IsBare := by
  have key : ∀ {u : Tool} {s : Slot} {tables : Tables}, r.tables.Puts u s tables →
      (s.inUse = false → s.IsBare) → (tables.slot t).inUse = false →
        (tables.slot t).IsBare := by
    intro u s tables puts hs
    rw [puts.slot]
    split
    · exact hs
    · exact h t
  cases out with
  | claim _ puts => exact key puts (fun hs => by simp [Slot.inUse] at hs) ht
  | free _ _ puts => exact key puts (fun _ => Slot.isBare_vacant) ht
  | freeLast _ _ puts =>
      rw [slot_publish, Tables.slot_forgetCode] at ht ⊢
      exact (key puts (fun _ => Slot.isBare_vacant) ht).forgetCode
  | @unregister u e _ puts => exact key puts (fun hs => (h u hs).unregister e) ht
  | restart =>
      rw [slot_restart] at ht ⊢
      exact (h t ht).withDisabled ∅
  | clear owned puts | register _ owned puts | setGlobal _ owned puts
  | setGlobalBits _ _ owned puts | setLocal _ owned puts =>
      exact key puts (fun hs => by simp [owned] at hs) ht

/-- **A slot without an owner keeps nothing but disabled sites**, whatever has happened. -/
theorem Reachable.isBare {r : Registry} (h : r.Reachable) (t : Tool)
    (ht : (r.slot t).inUse = false) : (r.slot t).IsBare := by
  induction h generalizing t with
  | empty =>
      rw [slot_empty]
      exact Slot.isBare_vacant
  | @after r _ c ih =>
      cases c with
      | operate op =>
          rw [Registry.after] at ht ⊢
          rcases r.apply_cases op with ⟨-, hr⟩ | ⟨-, out⟩
          · rw [hr] at ht ⊢
            exact ih t ht
          · exact out.isBare ih t ht
      | disable u site =>
          rw [Registry.after, slot_disable] at ht ⊢
          split at ht
          · rename_i hut
            rw [if_pos hut]
            exact (ih t ht).withDisabled _
          · rename_i hut
            rw [if_neg hut]
            exact ih t ht

/-- A slot without an owner has no events and no callbacks. -/
theorem Reachable.unowned {r : Registry} (h : r.Reachable) {t : Tool}
    (ht : (r.slot t).inUse = false) :
    (r.slot t).globalEvents = ∅ ∧ (∀ code, (r.slot t).localSet code = ∅) ∧
      ∀ e, (r.slot t).callback? e = none := by
  have hbare := h.isBare t ht
  refine ⟨?_, fun code => ?_, hbare.callback?_eq⟩ <;>
  · rw [hbare]
    rfl

/-- A callback is registered with an owner only. -/
theorem Reachable.inUse_of_callback? {r : Registry} (h : r.Reachable) {t : Tool} {e : Event}
    {c : Callback} (hc : (r.slot t).callback? e = some c) : (r.slot t).inUse = true := by
  cases hu : (r.slot t).inUse with
  | true => rfl
  | false =>
      rw [(h.isBare t hu).callback?_eq] at hc
      cases hc

end Registry

end Tracepoint
