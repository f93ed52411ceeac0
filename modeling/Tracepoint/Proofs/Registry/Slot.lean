/-
**Slots: what the tables say about one tool.**

The tables are shared by all tools.  What they say about a single one, its *slot*, is the name of
the tool that owns the slot, its callbacks, the events it has armed everywhere and in each code
unit, and the sites that are not reported to it.  Slots are not kept anywhere: they are how one
looks at the tables, and everything that is looked up for a tool is looked up in its slot.

Each write puts new content into one slot and leaves the others as they are.  This is not so plain
for the events armed in single code units, which stand in rows that all tools share, and of which
the writes drop those that nobody needs any more.  As long as no row is kept without need, the
tables are determined by the slots.

Main definitions:

* `Tracepoint.Slot`, `Tracepoint.Tables.slot`, `Tracepoint.Registry.slot` — the slots;
* `Tracepoint.Slot.effective`, `Tracepoint.Slot.target?` — what is delivered to a tool, and the
  callback that an event at a place goes to;
* `Tracepoint.Tables.Packed` — each row has events;
* `Tracepoint.Tables.Puts` — **one slot has new content** and the others have what they had.

Main results:

* `Tracepoint.Tables.target?_eq` — the callback of a tool is looked up in its slot;
* `Tracepoint.Tables.puts_setLocal`, `Tracepoint.Tables.puts_wipe` — **the writes that drop rows**
  put new content into one slot;
* `Tracepoint.Tables.Packed.ext` — tables with the same slots are the same.
-/

import Tracepoint.Registry

set_option relaxedAutoImplicit false
set_option autoImplicit false

namespace Tracepoint

/-! ### What is read from a vector -/

/-- A vector has what was put into it, and what it had in the other places. -/
theorem get_set {α : Type} {n : Nat} (v : Vector α n) (i j : Fin n) (a : α) :
    (v.set i a).get j = if i = j then a else v.get j := by
  show (v.set i a)[j] = if i = j then a else v[j]
  by_cases h : i = j
  · subst h
    simp
  · have hval : i.val ≠ j.val := fun hv => h (Fin.ext hv)
    simp [h, hval]

/-- What is made of each place changes in the place that is written only. -/
theorem apply_get_set {α β : Type} {n : Nat} (f : Fin n → α → β) (v : Vector α n) (i j : Fin n)
    (a : α) : f j ((v.set i a).get j) = if i = j then f i a else f j (v.get j) := by
  rw [get_set]
  split
  · rename_i h
    rw [h]
  · rfl

theorem get_replicate {α : Type} {n : Nat} (a : α) (i : Fin n) :
    (Vector.replicate n a).get i = a := Vector.getElem_replicate i.isLt

theorem EventRow.get_put (row : EventRow) (t u : Tool) (events : EventSet) :
    (row.put t events).get u = if t = u then events else row.get u := get_set ..

/-! ### Slots -/

/-- What the tables say about one tool. -/
structure Slot where
  /-- The name of the tool that owns the slot. -/
  owner : Option String
  /-- The callback for each event. -/
  callbacks : CallbackRow
  /-- The events armed in every code unit. -/
  globalEvents : EventSet
  /-- The further events armed in a code unit. -/
  localSet : CodeId → EventSet
  /-- The sites that are not reported. -/
  disabled : SiteSet

def Tables.slot (tables : Tables) (t : Tool) : Slot where
  owner := tables.owner? t
  callbacks := tables.callbacks.get t
  globalEvents := tables.globalSet t
  localSet := tables.localSet t
  disabled := tables.disabled.get t

def Registry.slot (r : Registry) (t : Tool) : Slot := r.tables.slot t

namespace Slot

def vacant : Slot := ⟨none, .blank, ∅, fun _ => ∅, ∅⟩

instance : Inhabited Slot := ⟨vacant⟩

/-! ### Look-ups -/

def inUse (s : Slot) : Bool := s.owner.isSome

def callback? (s : Slot) (e : Event) : Option Callback := s.callbacks.get e.index

/-- An event is armed somewhere. -/
def Arms (s : Slot) (e : Event) : Prop :=
  s.globalEvents.has e = true ∨ ∃ code, (s.localSet code).has e = true

/-- An event is delivered for what is armed somewhere. -/
def Delivers (s : Slot) (e : Event) : Prop := s.Arms e ∨ (s.Arms .call ∧ e.isDerived = true)

/-- The events that are delivered to the tool in a code unit. -/
def effective (s : Slot) (code : CodeId) : EventSet :=
  (s.globalEvents ∪ s.localSet code).delivered

/-- Whether an event, or the one it accompanies, is disabled at a place. -/
def isDisabled (s : Slot) (site : Site) : Bool :=
  s.disabled.contains site ||
    site.event.parent?.any fun parent => s.disabled.contains { site with event := parent }

/-- The callback that an event at a place goes to, if it goes to this tool. -/
def target? (s : Slot) (site : Site) : Option Callback :=
  if (s.effective site.code).has site.event && !s.isDisabled site then s.callback? site.event
  else none

/-! ### Changes -/

def clear (s : Slot) : Slot := { vacant with owner := s.owner }

def setCallback (s : Slot) (e : Event) (c : Option Callback) : Slot :=
  { s with callbacks := s.callbacks.put e c }

/-- The slot with other events armed everywhere. -/
def setGlobal (s : Slot) (events : EventSet) : Slot :=
  { s with globalEvents := events.stored }

/-- The slot with other further events armed in a code unit. -/
def setLocal (s : Slot) (code : CodeId) (events : EventSet) : Slot :=
  { s with localSet := fun other => if other = code then events.stored else s.localSet other }

/-- The slot with everything forgotten that is kept by code unit. -/
def forgetCode (s : Slot) : Slot := { s with localSet := fun _ => ∅, disabled := ∅ }

/-! ### What the changes do to the look-ups -/

@[simp] theorem callback?_vacant (e : Event) : vacant.callback? e = none := get_replicate ..

@[simp] theorem callback?_clear (s : Slot) (e : Event) : s.clear.callback? e = none :=
  callback?_vacant e

@[simp] theorem localSet_vacant (code : CodeId) : vacant.localSet code = ∅ := rfl

/-- A new callback is in the place of its event, and the others are where they were. -/
theorem callback?_setCallback (s : Slot) (e f : Event) (c : Option Callback) :
    (s.setCallback e c).callback? f = if e = f then c else s.callback? f := by
  rw [callback?, setCallback, CallbackRow.put, get_set]
  simp only [Event.index_inj]
  rfl

/-- The events armed in a code unit are the stored ones of the last set given for it. -/
theorem localSet_setLocal (s : Slot) (code other : CodeId) (events : EventSet) :
    (s.setLocal code events).localSet other =
      if other = code then events.stored else s.localSet other := rfl

end Slot

/-! ### Look-ups in the tables are look-ups in slots -/

namespace Tables

variable (tables : Tables) (t : Tool)

@[simp] theorem inUse_eq : tables.inUse t = (tables.slot t).inUse := rfl

@[simp] theorem owner?_eq : tables.owner? t = (tables.slot t).owner := rfl

@[simp] theorem callback?_eq (e : Event) : tables.callback? t e = (tables.slot t).callback? e := rfl

/-- The callback of a tool is looked up in its slot. -/
theorem target?_eq (site : Site) : tables.target? t site = (tables.slot t).target? site := by
  have hcallback : tables.callback? t site.event = (tables.slot t).callback? site.event := rfl
  have harmed : ((tables.effective t site.code).has site.event && !tables.isDisabled t site) =
      (((tables.slot t).effective site.code).has site.event &&
        !(tables.slot t).isDisabled site) := rfl
  rw [target?, Slot.target?, hcallback, harmed]
  cases (tables.slot t).callback? site.event <;> simp [Option.filter]

theorem has_localSet_iff {code : CodeId} {e : Event} :
    (tables.localSet t code).has e = true ↔
      ∃ row : EventRow, tables.localEvents[code]? = some row ∧ (row.get t).has e = true := by
  rw [localSet]
  cases tables.localEvents[code]? with
  | none => simp
  | some row => simp

/-- A row is listed if it is the row of a code unit. -/
theorem mem_toList_localEvents {entry : CodeId × EventRow} :
    entry ∈ tables.localEvents.toList ↔ tables.localEvents[entry.1]? = some entry.2 :=
  Std.ExtTreeMap.mem_toList_iff_getElem?_eq_some

/-- What a tool has armed somewhere is what its slot arms. -/
theorem has_anywhere_iff {e : Event} :
    (tables.anywhere t).has e = true ↔ (tables.slot t).Arms e := by
  rw [anywhere, EventSet.has_union, Bool.or_eq_true, Std.ExtTreeMap.foldl_eq_foldl_toList,
    EventSet.has_foldl_union fun entry : CodeId × EventRow => entry.2.get t, EventSet.has_empty,
    Bool.false_or, List.any_eq_true]
  refine or_congr_right ⟨?_, ?_⟩
  · rintro ⟨entry, hentry, he⟩
    exact ⟨entry.1, (tables.has_localSet_iff t).2
      ⟨entry.2, tables.mem_toList_localEvents.1 hentry, he⟩⟩
  · rintro ⟨code, he⟩
    obtain ⟨row, hrow, he⟩ := (tables.has_localSet_iff t).1 he
    exact ⟨(code, row), tables.mem_toList_localEvents.2 hrow, he⟩

end Tables

/-! ### The union of armed events -/

/-- An event is added to a set by a row in which some tool has it. -/
theorem EventRow.has_foldl (row : EventRow) (e : Event) (s : EventSet) :
    (row.foldl (· ∪ ·) s).has e = true ↔ s.has e = true ∨ ∃ t : Tool, (row.get t).has e = true := by
  rw [← Vector.foldl_toList]
  have hunion : (row.toList.foldl (· ∪ ·) s).has e = (s.has e || row.toList.any (·.has e)) :=
    EventSet.has_foldl_union id e row.toList s
  rw [hunion, Bool.or_eq_true, List.any_eq_true]
  refine or_congr_right ⟨?_, ?_⟩
  · rintro ⟨events, hmem, he⟩
    obtain ⟨i, hi, rfl⟩ := Vector.mem_iff_getElem.1 (Vector.mem_toList_iff.1 hmem)
    exact ⟨⟨i, hi⟩, he⟩
  · rintro ⟨t, he⟩
    exact ⟨row.get t, Vector.mem_toList_iff.2 (Vector.getElem_mem t.isLt), he⟩

theorem EventRow.has_foldl_foldl (rows : List (CodeId × EventRow)) (e : Event) (s : EventSet) :
    (rows.foldl (fun all entry => entry.2.foldl (· ∪ ·) all) s).has e = true ↔
      s.has e = true ∨ ∃ entry ∈ rows, ∃ t : Tool, (entry.2.get t).has e = true := by
  induction rows generalizing s with
  | nil => simp
  | cons entry rows ih =>
      rw [List.foldl_cons, ih, EventRow.has_foldl]
      simp only [List.mem_cons, exists_eq_or_imp, or_assoc]

namespace Tables

variable (tables : Tables)

/-- The union of all armed events has an event if some slot delivers it. -/
theorem has_armed_iff {e : Event} :
    tables.armed.has e = true ↔ ∃ t, (tables.slot t).Delivers e := by
  have hunion : ∀ f : Event,
      (tables.localEvents.foldl (fun all _ row => row.foldl (· ∪ ·) all)
        (tables.globalEvents.foldl (· ∪ ·) ∅)).has f = true ↔ ∃ t, (tables.slot t).Arms f := by
    intro f
    rw [Std.ExtTreeMap.foldl_eq_foldl_toList, EventRow.has_foldl_foldl, EventRow.has_foldl,
      EventSet.has_empty]
    constructor
    · rintro ((h | ⟨t, he⟩) | ⟨entry, hentry, t, he⟩)
      · cases h
      · exact ⟨t, Or.inl he⟩
      · exact ⟨t, Or.inr ⟨entry.1, (tables.has_localSet_iff t).2
          ⟨entry.2, tables.mem_toList_localEvents.1 hentry, he⟩⟩⟩
    · rintro ⟨t, he | ⟨code, he⟩⟩
      · exact Or.inl (Or.inr ⟨t, he⟩)
      · obtain ⟨row, hrow, he⟩ := (tables.has_localSet_iff t).1 he
        exact Or.inr ⟨(code, row), tables.mem_toList_localEvents.2 hrow, t, he⟩
  rw [armed, EventSet.has_delivered, Bool.or_eq_true, Bool.and_eq_true, hunion, hunion]
  constructor
  · rintro (⟨t, h⟩ | ⟨⟨t, h⟩, hd⟩)
    · exact ⟨t, Or.inl h⟩
    · exact ⟨t, Or.inr ⟨h, hd⟩⟩
  · rintro ⟨t, h | ⟨h, hd⟩⟩
    · exact Or.inl ⟨t, h⟩
    · exact Or.inr ⟨⟨t, h⟩, hd⟩

end Tables

/-! ### Rows -/

namespace EventRow

theorem isBlank_iff {row : EventRow} : row.isBlank = true ↔ ∀ t : Tool, row.get t = ∅ := by
  rw [isBlank, Vector.all_eq_true]
  constructor
  · exact fun h t => EventSet.isEmpty_iff.1 (h t.val t.isLt)
  · exact fun h i hi => EventSet.isEmpty_iff.2 (h ⟨i, hi⟩)

theorem isBlank_put {row : EventRow} {t : Tool} {s : EventSet} (h : s ≠ ∅) :
    (row.put t s).isBlank = false := by
  rw [← Bool.not_eq_true, isBlank_iff]
  intro hall
  have hset := hall t
  rw [get_put, if_pos rfl] at hset
  exact h hset

/-- What is left of a row without a tool has events. -/
theorem isBlank_of_without {row rest : EventRow} {t : Tool} (h : row.without t = some rest) :
    rest.isBlank = false := by
  rw [without] at h
  split at h
  · cases h
  · rename_i hblank
    cases h
    exact Bool.not_eq_true _ ▸ hblank

/-- Nothing is left of the tool, and the others have what they had. -/
theorem get_without (row : EventRow) (t u : Tool) :
    ((row.without t).map fun rest => rest.get u).getD ∅ = if t = u then ∅ else row.get u := by
  rw [without]
  split
  · rename_i hblank
    have hnone := isBlank_iff.1 hblank u
    rw [get_put] at hnone
    exact hnone.symm
  · exact get_put ..

end EventRow

namespace Tables

/-! ### Packed tables -/

/-- Each row has events, as a row without any is dropped. -/
def Packed (tables : Tables) : Prop :=
  ∀ (code : CodeId) (row : EventRow), tables.localEvents[code]? = some row → row.isBlank = false

theorem packed_empty : Packed .empty := by
  intro code row h
  rw [empty, Std.ExtTreeMap.getElem?_empty] at h
  cases h

/-- **Packed tables with the same slots are the same.** -/
theorem Packed.ext {tables tables' : Tables} (h : tables.Packed) (h' : tables'.Packed)
    (hslots : ∀ t, tables'.slot t = tables.slot t) : tables' = tables := by
  have hrows : tables'.localEvents = tables.localEvents := by
    refine Std.ExtTreeMap.ext_getElem? fun code => ?_
    have hsets : ∀ t, tables'.localSet t code = tables.localSet t code := fun t =>
      congrFun (congrArg Slot.localSet (hslots t)) code
    simp only [localSet] at hsets
    cases hrow : tables.localEvents[code]? with
    | none =>
        cases hrow' : tables'.localEvents[code]? with
        | none => rfl
        | some row' =>
            -- no tool has anything in the row, and so it is not there
            have hblank := EventRow.isBlank_iff.2 fun t => by simpa [hrow, hrow'] using hsets t
            rw [h' code row' hrow'] at hblank
            cases hblank
    | some row =>
        cases hrow' : tables'.localEvents[code]? with
        | none =>
            have hblank := EventRow.isBlank_iff.2 fun t => by
              simpa [hrow, hrow', eq_comm] using hsets t
            rw [h code row hrow] at hblank
            cases hblank
        | some row' =>
            congr 1
            refine Vector.ext fun i hi => ?_
            have hset := hsets ⟨i, hi⟩
            rw [hrow, hrow'] at hset
            exact hset
  obtain ⟨owners, callbacks, globalEvents, localEvents, disabled⟩ := tables
  obtain ⟨owners', callbacks', globalEvents', localEvents', disabled'⟩ := tables'
  obtain rfl : localEvents' = localEvents := hrows
  congr 1
  · exact Vector.ext fun i hi => congrArg Slot.owner (hslots ⟨i, hi⟩)
  · exact Vector.ext fun i hi => congrArg Slot.callbacks (hslots ⟨i, hi⟩)
  · exact Vector.ext fun i hi => congrArg Slot.globalEvents (hslots ⟨i, hi⟩)
  · exact Vector.ext fun i hi => congrArg Slot.disabled (hslots ⟨i, hi⟩)

/-! ### Rows after a write -/

section Rows

variable (tables : Tables) (t : Tool)

/-- The row of the code unit is what the events make of it, and the others are as they were. -/
theorem getElem?_setLocal (code other : CodeId) (events : EventSet) :
    (tables.setLocal t code events).localEvents[other]? =
      if code = other then
        if events.stored.isEmpty then tables.localEvents[code]?.bind fun row => row.without t
        else some ((tables.localEvents[code]?.getD .blank).put t events.stored)
      else tables.localEvents[other]? := by
  simp only [setLocal]
  split
  · cases hrow : tables.localEvents[code]? with
    | none =>
        by_cases h : code = other
        · rw [if_pos h, ← h]
          exact hrow
        · rw [if_neg h]
    | some row =>
        rw [Option.bind_some]
        cases hrest : row.without t with
        | none =>
            simp only [hrest, Std.ExtTreeMap.getElem?_erase, Std.LawfulEqCmp.compare_eq_iff_eq]
        | some rest =>
            simp only [hrest, Std.ExtTreeMap.getElem?_insert, Std.LawfulEqCmp.compare_eq_iff_eq]
  · simp only [Std.ExtTreeMap.getElem?_insert, Std.LawfulEqCmp.compare_eq_iff_eq]

/-- Of each row there is what is left without the tool. -/
theorem getElem?_wipe (code : CodeId) :
    (tables.wipe t).localEvents[code]? =
      tables.localEvents[code]?.bind fun row => row.without t := by
  simp only [wipe, Std.ExtTreeMap.getElem?_filterMap]
  cases tables.localEvents[code]? <;> rfl

/-- The set of a tool in a row of which another tool is taken out. -/
theorem get_bind_without (row? : Option EventRow) (u : Tool) :
    ((row?.bind fun row => row.without t).map fun row => row.get u).getD ∅ =
      if t = u then ∅ else (row?.map fun row => row.get u).getD ∅ := by
  cases row? with
  | none => exact (ite_self _).symm
  | some row => exact row.get_without t u

theorem localSet_setLocal (u : Tool) (code other : CodeId) (events : EventSet) :
    (tables.setLocal t code events).localSet u other =
      if t = u ∧ other = code then events.stored else tables.localSet u other := by
  rw [localSet, getElem?_setLocal]
  by_cases hcode : other = code
  · subst hcode
    rw [if_pos rfl]
    split
    · rename_i hnone
      rw [get_bind_without, EventSet.isEmpty_iff.1 hnone]
      simp only [and_true]
      rfl
    · rw [Option.map_some, Option.getD_some, EventRow.get_put]
      simp only [and_true]
      split
      · rfl
      · cases hrow : tables.localEvents[other]? with
        | none =>
            rw [localSet, hrow]
            exact get_replicate ..
        | some row => rw [localSet, hrow]; rfl
  · rw [if_neg fun h => hcode h.symm, if_neg fun h => hcode h.2]
    rfl

theorem localSet_wipe (u : Tool) (code : CodeId) :
    (tables.wipe t).localSet u code = if t = u then ∅ else tables.localSet u code := by
  rw [localSet, getElem?_wipe, get_bind_without]
  rfl

end Rows

/-! ### New content for one slot -/

/-- **One slot has new content**, the others have what they had, and no row is kept without need. -/
structure Puts (tables : Tables) (t : Tool) (s : Slot) (tables' : Tables) : Prop where
  slot : ∀ u, tables'.slot u = if t = u then s else tables.slot u
  packed : tables.Packed → tables'.Packed

/-- What is put into a slot after something else is there in the end. -/
theorem Puts.trans {tables tables' tables'' : Tables} {t : Tool} {s s' : Slot}
    (h : tables.Puts t s tables') (h' : tables'.Puts t s' tables'') :
    tables.Puts t s' tables'' where
  slot u := by
    rw [h'.slot, h.slot]
    split <;> rfl
  packed hp := h'.packed (h.packed hp)

section Puts

variable (tables : Tables) (t : Tool)

theorem puts_setOwner (owner : Option String) :
    tables.Puts t { tables.slot t with owner } (tables.setOwner t owner) where
  slot u := apply_get_set (fun u owner => { tables.slot u with owner }) tables.owners t u owner
  packed := id

theorem puts_setCallback (e : Event) (c : Option Callback) :
    tables.Puts t ((tables.slot t).setCallback e c) (tables.setCallback t e c) where
  slot u :=
    apply_get_set (fun u callbacks => { tables.slot u with callbacks }) tables.callbacks t u _
  packed := id

theorem puts_setGlobal (events : EventSet) :
    tables.Puts t ((tables.slot t).setGlobal events) (tables.setGlobal t events) where
  slot u :=
    apply_get_set (fun u globalEvents => { tables.slot u with globalEvents }) tables.globalEvents t
      u _
  packed := id

/-- **Events are armed in a code unit for one tool**, and a row without events is dropped. -/
theorem puts_setLocal (code : CodeId) (events : EventSet) :
    tables.Puts t ((tables.slot t).setLocal code events) (tables.setLocal t code events) where
  slot u := by
    have hset : (tables.setLocal t code events).localSet u = fun other =>
        if t = u ∧ other = code then events.stored else tables.localSet u other :=
      funext fun other => tables.localSet_setLocal t u code other events
    show ({ tables.slot u with localSet := (tables.setLocal t code events).localSet u } : Slot) = _
    rw [hset]
    split
    · rename_i h
      subst h
      simp only [true_and]
      rfl
    · rename_i h
      simp only [h, false_and, if_false]
      rfl
  packed h other row hrow := by
    rw [getElem?_setLocal] at hrow
    split at hrow
    · split at hrow
      · obtain ⟨old, -, hrest⟩ := Option.bind_eq_some_iff.1 hrow
        exact EventRow.isBlank_of_without hrest
      · rename_i hsome
        cases hrow
        exact EventRow.isBlank_put fun hnone => hsome (EventSet.isEmpty_iff.2 hnone)
    · exact h other row hrow

/-- **Everything is forgotten about one tool but its name**, with the rows that only it had. -/
theorem puts_wipe : tables.Puts t (tables.slot t).clear (tables.wipe t) where
  slot u := by
    have hset : (tables.wipe t).localSet u = fun code =>
        if t = u then ∅ else tables.localSet u code :=
      funext fun code => tables.localSet_wipe t u code
    show (⟨tables.owner? u, (tables.callbacks.set t _).get u, (tables.globalEvents.put t ∅).get u,
      (tables.wipe t).localSet u, (tables.disabled.set t ∅).get u⟩ : Slot) = _
    rw [hset, get_set, EventRow.get_put, get_set]
    by_cases h : t = u
    · subst h
      simp only [if_true]
      rfl
    · simp only [h, if_false]
      rfl
  packed h code row hrow := by
    rw [getElem?_wipe] at hrow
    obtain ⟨old, -, hrest⟩ := Option.bind_eq_some_iff.1 hrow
    exact EventRow.isBlank_of_without hrest

theorem puts_setDisabled (sites : SiteSet) :
    tables.Puts t { tables.slot t with disabled := sites } (tables.setDisabled t sites) where
  slot u := apply_get_set (fun u disabled => { tables.slot u with disabled }) tables.disabled t u _
  packed := id

end Puts

/-! ### New content for all slots -/

@[simp] theorem slot_enable (tables : Tables) (t : Tool) :
    tables.enable.slot t = { tables.slot t with disabled := ∅ } := by
  show ({ tables.slot t with disabled := (Vector.replicate 6 ∅).get t } : Slot) = _
  rw [get_replicate]

@[simp] theorem slot_forgetCode (tables : Tables) (t : Tool) :
    tables.forgetCode.slot t = (tables.slot t).forgetCode := by
  rw [forgetCode, slot_enable]
  rfl

theorem packed_forgetCode (tables : Tables) : tables.forgetCode.Packed := packed_empty

@[simp] theorem slot_empty (t : Tool) : empty.slot t = .vacant := by
  simp only [slot, empty, owner?, globalSet, EventRow.blank, get_replicate]
  rfl

end Tables

namespace Registry

@[simp] theorem slot_tables (r : Registry) (t : Tool) : r.tables.slot t = r.slot t := rfl

@[simp] theorem slot_empty (t : Tool) : empty.slot t = .vacant := Tables.slot_empty t

@[simp] theorem slot_publish (r : Registry) (tables : Tables) (t : Tool) :
    (r.publish tables).slot t = tables.slot t := rfl

@[simp] theorem version_publish (r : Registry) (tables : Tables) :
    (r.publish tables).version = r.version + 1 := rfl

@[simp] theorem armed_publish (r : Registry) (tables : Tables) :
    (r.publish tables).armed = tables.armed := rfl

@[simp] theorem slot_restart (r : Registry) (t : Tool) :
    r.restart.slot t = { r.slot t with disabled := ∅ } := Tables.slot_enable ..

theorem target?_eq (r : Registry) (t : Tool) (site : Site) :
    r.target? t site = (r.slot t).target? site := Tables.target?_eq ..

end Registry

end Tracepoint
