/-
**What the checks of a draft are good for.**

A code unit comes from a draft that was written one directive at a time and that passed the checks.
This module says what the checks establish about the code unit: wherever control goes from an
instruction, there is an instruction; every label that is named has a place; every local that is
named is there, and so is one for each parameter; only generators yield.

Main definitions:

* `Tracepoint.Draft.Written` — drafts that can be written;
* `Tracepoint.Code.Built` — **code units that were built**;
* `Tracepoint.Draft.Finishes` — what the checks compare.

Main results:

* `Tracepoint.Draft.finishes_of_finish` — a draft that passes the checks;
* `Tracepoint.Code.Built.leads`, `Tracepoint.Code.Built.exists_target`,
  `Tracepoint.Code.Built.slot_lt`, `Tracepoint.Code.Built.params_le`,
  `Tracepoint.Code.Built.isGenerator_of_yield` — what holds of a code unit that was built;
* `Tracepoint.Source.built_of_build` — whole sources are built.
-/

import Tracepoint.Code.Draft
import Tracepoint.Proofs.Thread.Telling

set_option relaxedAutoImplicit false
set_option autoImplicit false

namespace Tracepoint

/-! ### Writing -/

/-- **A draft that can be written**: directive after directive.  A directive that is refused changes
nothing. -/
inductive Draft.Written : Draft → Prop
  | start (name : String) (firstLine params : ℕ) (isGenerator : Bool) :
      Written (.start name firstLine params isGenerator)
  | perform {d d' : Draft} {directive : Directive} (h : Written d)
      (hd : d.perform directive = .ok d') : Written d'

/-- **A code unit that was built**: the finished form of a draft that was written. -/
def Code.Built (c : Code) : Prop := ∃ d : Draft, d.Written ∧ d.finish = .ok c

namespace Draft

theorem Written.perform_list {d d' : Draft} {directives : List Directive} (h : Written d)
    (hd : directives.foldlM Draft.perform d = .ok d') : Written d' := by
  induction directives generalizing d with
  | nil =>
      cases hd
      exact h
  | cons directive directives ih =>
      rw [List.foldlM_cons] at hd
      cases hm : d.perform directive with
      | error e =>
          rw [hm] at hd
          cases hd
      | ok mid =>
          rw [hm] at hd
          exact ih (h.perform hm) hd

/-- Each parameter has a local. -/
theorem Written.params_le {d : Draft} (h : Written d) : d.params ≤ d.reserved := by
  induction h with
  | start => exact Nat.le_refl _
  | @perform d d' directive _ hd ih =>
      cases directive with
      | params n =>
          cases hd
          exact Nat.le_max_right ..
      | bind l =>
          simp only [Draft.perform, Draft.bind] at hd
          split at hd <;> cases hd
          exact ih
      | _ =>
          cases hd
          exact ih

/-! ### The number of locals -/

/-- **The number of locals is the smallest one** that is enough for those that are reserved and for
every local that is named. -/
theorem locals_le_iff (d : Draft) (n : ℕ) : d.locals ≤ n ↔ d.reserved ≤ n ∧
    ∀ i ∈ d.instructions, ∀ slot, i.slot? = some slot → slot < n := by
  unfold locals
  generalize d.instructions = instructions
  generalize d.reserved = m
  induction instructions generalizing m with
  | nil => simp
  | cons i rest ih =>
      have hslot : (i.slot?.map (· + 1)).getD 0 ≤ n ↔ ∀ slot, i.slot? = some slot → slot < n := by
        cases i.slot? with
        | none => simp
        | some slot =>
            simp only [Option.map_some, Option.getD_some, Option.some.injEq, forall_eq']
            exact Nat.succ_le_iff
      rw [List.foldl_cons, ih, Nat.max_le, hslot, List.forall_mem_cons, and_assoc]

/-- The number of locals is enough for every local that is named, and for those that are
reserved. -/
theorem le_locals (d : Draft) : d.reserved ≤ d.locals ∧
    ∀ i ∈ d.instructions, ∀ slot, i.slot? = some slot → slot < d.locals :=
  (d.locals_le_iff d.locals).1 (Nat.le_refl _)

/-! ### Finishing -/

/-- A list on which a check succeeds: each result is that of an item, and each item has one. -/
theorem mem_of_mapM {α β : Type} {f : α → Except BuildError β} {xs : List α} {ys : List β}
    (h : xs.mapM f = .ok ys) :
    (∀ y ∈ ys, ∃ x ∈ xs, f x = .ok y) ∧ ∀ x ∈ xs, ∃ y ∈ ys, f x = .ok y := by
  induction xs generalizing ys with
  | nil =>
      cases h
      simp
  | cons x xs ih =>
      simp only [List.mapM_cons, Bind.bind, Except.bind, pure, Except.pure] at h
      cases hx : f x with
      | error e =>
          rw [hx] at h
          cases h
      | ok y =>
          cases hxs : xs.mapM f with
          | error e =>
              rw [hx, hxs] at h
              cases h
          | ok rest =>
              rw [hx, hxs] at h
              cases h
              obtain ⟨hfrom, hto⟩ := ih hxs
              constructor
              · intro y' hy'
                rcases List.mem_cons.1 hy' with rfl | hy'
                · exact ⟨x, List.mem_cons_self .., hx⟩
                · obtain ⟨x', hx', hfx'⟩ := hfrom y' hy'
                  exact ⟨x', List.mem_cons_of_mem _ hx', hfx'⟩
              · intro x' hx'
                rcases List.mem_cons.1 hx' with rfl | hx'
                · exact ⟨y, List.mem_cons_self .., hx⟩
                · obtain ⟨y', hy', hfx'⟩ := hto x' hx'
                  exact ⟨y', List.mem_cons_of_mem _ hy', hfx'⟩

/-- Labels that are all bound. -/
theorem boundLabels_eq_ok {d : Draft} {labels : List (Option ℕ)} {n : ℕ} {places : List ℕ}
    (h : d.boundLabels n labels = .ok places) : labels = places.map some := by
  induction labels generalizing n places with
  | nil =>
      cases h
      rfl
  | cons label labels ih =>
      cases label with
      | none => cases h
      | some i =>
          simp only [boundLabels, Bind.bind, Except.bind, pure, Except.pure] at h
          split at h
          · cases h
          · rename_i hrest
            cases h
            rw [ih hrest, List.map_cons]

theorem resolve_eq_ok {d : Draft} {labels : Array ℕ} {l : Label} {i : ℕ}
    (h : d.resolve labels l = .ok i) : labels[l.number]? = some i := by
  unfold resolve at h
  split at h
  · cases h
    assumption
  · cases h

/-- A handler that passes the checks stands where its labels do, and covers something, but not its
target, which is in the code. -/
theorem resolveHandler_eq_ok {d : Draft} {labels : Array ℕ} {h : LabelledHandler}
    {handler : Handler} (hh : d.resolveHandler labels h = .ok handler) :
    (labels[h.start.number]? = some handler.start ∧ labels[h.stop.number]? = some handler.stop ∧
      labels[h.target.number]? = some handler.target ∧ handler.depth = h.depth) ∧
      handler.start < handler.stop ∧ handler.covers handler.target = false ∧
        handler.target < d.rows.size := by
  unfold resolveHandler at hh
  simp only [Bind.bind, Except.bind, pure, Except.pure] at hh
  split at hh
  · cases hh
  rename_i hstart
  split at hh
  · cases hh
  rename_i hstop
  split at hh
  · cases hh
  rename_i htarget
  split at hh
  · rename_i hchecks
    cases hh
    exact ⟨⟨resolve_eq_ok hstart, resolve_eq_ok hstop, resolve_eq_ok htarget, rfl⟩, hchecks.1,
      Bool.eq_false_iff.2 hchecks.2.1, hchecks.2.2⟩
  · cases hh

/-- **A draft that passes the checks**, and the code unit that it becomes. -/
structure Finishes (d : Draft) (c : Code) : Prop where
  rows : c.rows = d.rows
  params : c.params = d.params
  locals : c.locals = d.locals
  consts : c.consts = d.consts
  labels : d.labels.toList = c.labels.toList.map some
  size : d.rows.size ≤ Draft.maxSize
  last : ∃ i, d.instructions.getLast? = some i ∧ i.isTerminator = true
  targets : ∀ i ∈ d.instructions, ∀ l, i.target? = some l →
    ∃ target, c.target? l = some target ∧ target < d.rows.size
  yields : .yield ∈ d.instructions → c.isGenerator = true
  resolved : d.handlers.mapM (d.resolveHandler c.labels) = .ok c.handlers
  handlers : ∀ h ∈ c.handlers, h.start < h.stop ∧ h.covers h.target = false ∧
    h.target < d.rows.size

theorem finishes_of_finish {d : Draft} {c : Code} (h : d.finish = .ok c) : d.Finishes c := by
  unfold finish refuse at h
  simp only [Bind.bind, Except.bind, pure, Except.pure] at h
  -- one check after the other, each of which has succeeded
  split at h
  case h_2 => cases h
  rename_i last hlast
  split at h
  · cases h
  rename_i hsize
  split at h
  · cases h
  rename_i labels hlabels
  split at h
  · cases h
  rename_i targets htargets
  split at h
  · cases h
  rename_i hends
  split at h
  · cases h
  rename_i hyields
  split at h
  · cases h
  rename_i handlers hhandlers
  cases h
  rw [Bool.or_eq_true, not_or] at hends
  have hterminator : last.isTerminator = true := by simpa using hends.1
  have hwithin : ∀ target ∈ targets, target < d.rows.size := by simpa using hends.2
  have hgenerator : d.isGenerator = false → .yield ∉ d.instructions := by simpa using hyields
  refine ⟨rfl, rfl, rfl, rfl, boundLabels_eq_ok hlabels, Nat.le_of_not_lt hsize,
    ⟨last, hlast, hterminator⟩, fun i hi l hl => ?_, fun hyield => ?_, hhandlers,
    fun handler hhandler => ?_⟩
  · have hmem : l ∈ d.instructions.filterMap Instruction.target? :=
      List.mem_filterMap.2 ⟨i, hi, hl⟩
    obtain ⟨target, htarget, hresolve⟩ := (mem_of_mapM htargets).2 l hmem
    exact ⟨target, resolve_eq_ok hresolve, hwithin target htarget⟩
  · show d.isGenerator = true
    rw [← Bool.not_eq_false]
    exact fun hno => hgenerator hno hyield
  · obtain ⟨labelled, -, hresolve⟩ := (mem_of_mapM hhandlers).1 handler hhandler
    exact (resolveHandler_eq_ok hresolve).2

end Draft

namespace Code

theorem lt_size_of_instruction? {c : Code} {i : ℕ} {instruction : Instruction}
    (h : c.instruction? i = some instruction) : i < c.size := by
  rw [instruction?, Option.map_eq_some_iff] at h
  obtain ⟨row, hrow, -⟩ := h
  exact (Array.getElem?_eq_some_iff.1 hrow).1

theorem exists_instruction {c : Code} {i : ℕ} (h : i < c.size) :
    ∃ instruction, c.instruction? i = some instruction := by
  have hrow : c.rows[i]? = some c.rows[i] := Array.getElem?_eq_getElem h
  exact ⟨_, by rw [instruction?, hrow]; rfl⟩

end Code

namespace Draft.Finishes

variable {d : Draft} {c : Code}

/-- The instructions of a code unit are those that were written. -/
theorem instruction?_eq (h : d.Finishes c) (i : ℕ) :
    c.instruction? i = d.instructions[i]? := by
  rw [Code.instruction?, h.rows, Draft.instructions, List.getElem?_map, Array.getElem?_toList]

theorem mem_instructions (h : d.Finishes c) {i : ℕ} {instruction : Instruction}
    (hi : c.instruction? i = some instruction) : instruction ∈ d.instructions := by
  rw [h.instruction?_eq] at hi
  exact List.mem_of_getElem? hi

/-- Behind an instruction at which control goes on there is another one. -/
theorem next_lt (h : d.Finishes c) {i : ℕ} {instruction : Instruction}
    (hi : c.instruction? i = some instruction) (hn : instruction.isTerminator = false) :
    i + 1 < c.size := by
  have hlt := Code.lt_size_of_instruction? hi
  have hsize : c.size = d.instructions.length := by
    rw [Code.size, h.rows, Draft.instructions, List.length_map, Array.length_toList]
  obtain ⟨last, hlast, hterminator⟩ := h.last
  rcases Nat.lt_or_ge (i + 1) c.size with hnext | hend
  · exact hnext
  -- otherwise the instruction is the last one
  · rw [List.getLast?_eq_getElem?, show d.instructions.length - 1 = i by omega,
      ← h.instruction?_eq, hi, Option.some.injEq] at hlast
    rw [hlast, hterminator] at hn
    cases hn

end Draft.Finishes

namespace Code.Built

variable {c : Code}

theorem exists_finishes (h : c.Built) : ∃ d : Draft, d.Written ∧ d.Finishes c := by
  obtain ⟨d, hd, hc⟩ := h
  exact ⟨d, hd, Draft.finishes_of_finish hc⟩

/-- There is a first instruction. -/
theorem size_pos (h : c.Built) : 0 < c.size := by
  obtain ⟨d, -, hd⟩ := h.exists_finishes
  obtain ⟨last, hlast, -⟩ := hd.last
  have hmem := List.mem_of_getLast? hlast
  have hlength := List.length_pos_of_mem hmem
  rwa [Draft.instructions, List.length_map, Array.length_toList, ← hd.rows] at hlength

/-- No offset is cut off. -/
theorem offsetOf_eq (h : c.Built) {i : ℕ} (hi : i < c.size) : offsetOf i = 2 * i := by
  obtain ⟨d, -, hd⟩ := h.exists_finishes
  have hsize := hd.size
  rw [Code.size, hd.rows] at hi
  rw [Draft.maxSize] at hsize
  exact Tracepoint.offsetOf_eq (by omega)

/-- **Control stays in the code.** -/
theorem leads (h : c.Built) {i j : ℕ} (hl : c.Leads i j) : j < c.size := by
  obtain ⟨d, -, hd⟩ := h.exists_finishes
  have hsize : c.size = d.rows.size := by rw [Code.size, hd.rows]
  cases hl with
  | next hi hn => exact hd.next_lt hi hn
  | jump hi hl ht =>
      obtain ⟨target, htarget, hlt⟩ := hd.targets _ (hd.mem_instructions hi) _ hl
      rw [ht, Option.some.injEq] at htarget
      rwa [htarget, hsize]
  | handler hh =>
      have hmem := List.mem_reverse.1 (List.mem_of_find?_eq_some hh)
      rw [hsize]
      exact (hd.handlers _ hmem).2.2

/-- Every label that is named has a place in the code. -/
theorem exists_target (h : c.Built) {i : ℕ} {instruction : Instruction} {l : Label}
    (hi : c.instruction? i = some instruction) (hl : instruction.target? = some l) :
    ∃ target, c.target? l = some target ∧ target < c.size := by
  obtain ⟨d, -, hd⟩ := h.exists_finishes
  rw [Code.size, hd.rows]
  exact hd.targets _ (hd.mem_instructions hi) _ hl

/-- Every local that is named is there. -/
theorem slot_lt (h : c.Built) {i : ℕ} {instruction : Instruction} {slot : ℕ}
    (hi : c.instruction? i = some instruction) (hs : instruction.slot? = some slot) :
    slot < c.locals := by
  obtain ⟨d, -, hd⟩ := h.exists_finishes
  rw [hd.locals]
  exact d.le_locals.2 _ (hd.mem_instructions hi) slot hs

/-- Every parameter has a local. -/
theorem params_le (h : c.Built) : c.params ≤ c.locals := by
  obtain ⟨d, hwritten, hd⟩ := h.exists_finishes
  rw [hd.params, hd.locals]
  exact Nat.le_trans hwritten.params_le d.le_locals.1

/-- Only generators yield. -/
theorem isGenerator_of_yield (h : c.Built) {i : ℕ} (hi : c.instruction? i = some .yield) :
    c.isGenerator = true := by
  obtain ⟨d, -, hd⟩ := h.exists_finishes
  exact hd.yields (hd.mem_instructions hi)

end Code.Built

theorem Source.built_of_build {s : Source} {c : Code} (h : s.build = .ok c) : c.Built := by
  unfold Source.build at h
  cases hw : s.write with
  | error e =>
      rw [hw] at h
      cases h
  | ok d =>
      rw [hw] at h
      exact ⟨d, (Draft.Written.start ..).perform_list hw, h⟩

end Tracepoint
