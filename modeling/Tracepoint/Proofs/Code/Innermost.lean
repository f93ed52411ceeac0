/-
**The innermost handler.**

Handlers nest as the blocks do that they are written for, and an exception belongs to the innermost
handler around the instruction.  The look-up goes by registration instead: of the handlers that
cover the instruction it takes the one that was registered last.  The two agree at an instruction
exactly if nothing that was registered behind its innermost handler covers it.  Registering each
handler before those inside it is enough for that; but as soon as two ranges nest, some order of the
same handlers passes the checks as well and lets an outer handler take what belongs to an inner one.

Main definitions:

* `Tracepoint.Handler.Within`, `Tracepoint.Handler.Apart` — nested and disjoint ranges;
* `Tracepoint.Code.Nested` — the ranges are distinct, and nested or disjoint;
* `Tracepoint.Code.Innermost` — **the innermost handler** around an instruction;
* `Tracepoint.Code.PrefersInnermost` — the look-up finds it wherever there is one;
* `Tracepoint.Code.reordered` — the same code unit with its handlers in another order.

Main results:

* `Tracepoint.Code.handler?_eq_some_iff` — what the look-up finds;
* `Tracepoint.Code.Nested.exists_innermost` — where the innermost handler exists;
* `Tracepoint.Code.Built.reordered` — the checks do not depend on the order of the handlers;
* `Tracepoint.Code.innermost_found_iff` — **when the innermost handler is found**: at one
  instruction, in a code unit, and in every order of registration.
-/

import Mathlib.Data.List.Pairwise
import Mathlib.Data.List.Perm.Basic
import Tracepoint.Proofs.Code.Built

set_option relaxedAutoImplicit false
set_option autoImplicit false

namespace Tracepoint

/-! ### Ranges -/

namespace Handler

variable {h k : Handler}

def range (h : Handler) : ℕ × ℕ := (h.start, h.stop)

/-- The number of instructions in the range. -/
def width (h : Handler) : ℕ := h.stop - h.start

/-- The range of `h` lies within that of `k`. -/
def Within (h k : Handler) : Prop := k.start ≤ h.start ∧ h.stop ≤ k.stop

/-- No instruction is in both ranges. -/
def Apart (h k : Handler) : Prop := h.stop ≤ k.start ∨ k.stop ≤ h.start

/-- Distinct ranges, one within the other or apart. -/
def Fits (h k : Handler) : Prop := h.range ≠ k.range ∧ (h.Within k ∨ k.Within h ∨ h.Apart k)

theorem covers_iff {i : ℕ} : h.covers i = true ↔ h.start ≤ i ∧ i < h.stop := by
  simp [covers]

theorem Within.covers {i : ℕ} (hw : h.Within k) (hi : h.covers i = true) : k.covers i = true := by
  rw [covers_iff] at hi ⊢
  exact ⟨Nat.le_trans hw.1 hi.1, Nat.lt_of_lt_of_le hi.2 hw.2⟩

theorem Apart.symm (ha : h.Apart k) : k.Apart h := Or.symm ha

theorem Fits.symm : h.Fits k → k.Fits h := by
  rintro ⟨hranges, hwithin | hwithin | hapart⟩
  · exact ⟨hranges.symm, Or.inr (Or.inl hwithin)⟩
  · exact ⟨hranges.symm, Or.inl hwithin⟩
  · exact ⟨hranges.symm, Or.inr (Or.inr hapart.symm)⟩

instance : Std.Symm Handler.Fits := ⟨fun _ _ => Fits.symm⟩

instance : Std.Symm Handler.Apart := ⟨fun _ _ => Apart.symm⟩

/-- Ranges with a common instruction are not apart. -/
theorem Apart.covers_eq_false {i : ℕ} (ha : h.Apart k) (hi : h.covers i = true) :
    k.covers i = false := by
  rw [covers_iff] at hi
  rw [Bool.eq_false_iff, ne_eq, covers_iff]
  unfold Apart at ha
  omega

/-- A range strictly within another one is smaller. -/
theorem Within.width_lt {i : ℕ} (hw : h.Within k) (hne : h.range ≠ k.range)
    (hi : h.covers i = true) : h.width < k.width := by
  obtain ⟨hstart, hstop⟩ := hw
  rw [covers_iff] at hi
  have hdiffer : ¬(h.start = k.start ∧ h.stop = k.stop) := by
    rintro ⟨h₁, h₂⟩
    exact hne (by rw [range, range, h₁, h₂])
  unfold width
  omega

end Handler

namespace Code

variable {c : Code}

/-- **The ranges of the handlers are distinct, and nested or disjoint.** -/
def Nested (c : Code) : Prop := c.handlers.Pairwise Handler.Fits

/-- **The innermost handler around an instruction**: the one with the smallest range. -/
structure Innermost (c : Code) (i : ℕ) (h : Handler) : Prop where
  mem : h ∈ c.handlers
  covers : h.covers i = true
  least : ∀ k ∈ c.handlers, k.covers i = true → k ≠ h → h.width < k.width

/-- The look-up finds the innermost handler wherever there is one, and nothing elsewhere. -/
def PrefersInnermost (c : Code) : Prop :=
  ∀ i h, c.handler? i = some h ↔ c.Innermost i h

/-- The handler `h` was registered before `k`. -/
def RegistersBefore (c : Code) (h k : Handler) : Prop :=
  [h, k].Sublist c.handlers

/-- The same code unit with its handlers registered in another order. -/
def reordered (c : Code) (handlers : List Handler) : Code :=
  { c with handlers }

/-! ### The look-up -/

theorem handler?_eq_none_iff {i : ℕ} :
    c.handler? i = none ↔ ∀ h ∈ c.handlers, h.covers i = false := by
  simp [handler?]

/-- In a list without repetition, what comes after an item is what stands behind it. -/
theorem pair_sublist_iff {front back : List Handler} {h k : Handler}
    (hn : (front ++ h :: back).Nodup) : [h, k].Sublist (front ++ h :: back) ↔ k ∈ back := by
  induction front with
  | nil => rw [List.nil_append, List.cons_sublist_cons, List.singleton_sublist]
  | cons x front ih =>
      rw [List.cons_append, List.nodup_cons] at hn
      have hne : h ≠ x := by
        rintro rfl
        exact hn.1 (List.mem_append_right _ (List.mem_cons_self ..))
      rw [List.cons_append, List.sublist_cons_iff, ih hn.2]
      simp [hne]

/-- **What the look-up finds**: the handler that covers the instruction while none behind it
does. -/
theorem handler?_eq_some_iff (hn : c.handlers.Nodup) {i : ℕ} {h : Handler} :
    c.handler? i = some h ↔
      h ∈ c.handlers ∧ h.covers i = true ∧ ∀ k, c.RegistersBefore h k → k.covers i = false := by
  unfold RegistersBefore
  rw [handler?, List.find?_eq_some_iff_append]
  constructor
  · rintro ⟨hcovers, back, front, hsplit, hback⟩
    have hhandlers : c.handlers = front.reverse ++ h :: back.reverse := by
      simpa using congrArg List.reverse hsplit
    rw [hhandlers] at hn ⊢
    refine ⟨List.mem_append_right _ (List.mem_cons_self ..), hcovers, fun k hk => ?_⟩
    have hmem : k ∈ back := List.mem_reverse.1 ((pair_sublist_iff hn).1 hk)
    simpa using hback k hmem
  · rintro ⟨hmem, hcovers, hbehind⟩
    obtain ⟨front, back, hsplit⟩ := List.append_of_mem hmem
    rw [hsplit] at hn hbehind
    refine ⟨hcovers, back.reverse, front.reverse, by simp [hsplit], fun k hk => ?_⟩
    simpa using hbehind k ((pair_sublist_iff hn).2 (List.mem_reverse.1 hk))

/-! ### Nested handlers -/

namespace Nested

theorem nodup (hn : c.Nested) : c.handlers.Nodup :=
  hn.imp fun hhk heq => hhk.1 (by rw [heq])

/-- Of two handlers around one instruction, one is within the other and smaller. -/
theorem width_lt (hn : c.Nested) {i : ℕ} {h k : Handler} (hh : h ∈ c.handlers)
    (hk : k ∈ c.handlers) (hne : h ≠ k) (hhi : h.covers i = true) (hki : k.covers i = true) :
    h.Within k ∧ h.width < k.width ∨ k.Within h ∧ k.width < h.width := by
  obtain ⟨hranges, hwithin | hwithin | hapart⟩ := List.Pairwise.forall hn hh hk hne
  · exact Or.inl ⟨hwithin, hwithin.width_lt hranges hhi⟩
  · exact Or.inr ⟨hwithin, hwithin.width_lt hranges.symm hki⟩
  · rw [hapart.covers_eq_false hhi] at hki
    cases hki

/-- **Around an instruction that a handler covers there is an innermost one**, which is no larger
than that handler. -/
theorem exists_innermost (hn : c.Nested) {i : ℕ} {h : Handler} (hh : h ∈ c.handlers)
    (hi : h.covers i = true) : ∃ g, c.Innermost i g ∧ g.width ≤ h.width := by
  -- by induction on the size of the range
  generalize hwidth : h.width = width
  induction width using Nat.strongRecOn generalizing h with
  | ind width ih =>
      by_cases hleast : ∀ k ∈ c.handlers, k.covers i = true → k ≠ h → h.width < k.width
      · exact ⟨h, ⟨hh, hi, hleast⟩, Nat.le_of_eq hwidth⟩
      · push Not at hleast
        obtain ⟨k, hk, hki, hne, hle⟩ := hleast
        rcases hn.width_lt hk hh hne hki hi with ⟨-, hlt⟩ | ⟨-, hlt⟩
        · obtain ⟨g, hg, hgk⟩ := ih k.width (hwidth ▸ hlt) hk hki rfl
          exact ⟨g, hg, by omega⟩
        · omega

/-- **At one instruction** the innermost handler is found exactly if nothing behind it covers the
instruction. -/
theorem handler?_eq_innermost_iff (hn : c.Nested) {i : ℕ} {h : Handler} (hi : c.Innermost i h) :
    c.handler? i = some h ↔ ∀ k, c.RegistersBefore h k → k.covers i = false := by
  rw [handler?_eq_some_iff hn.nodup]
  exact ⟨fun hfound => hfound.2.2, fun hbehind => ⟨hi.mem, hi.covers, hbehind⟩⟩

theorem prefersInnermost_iff (hn : c.Nested) :
    c.PrefersInnermost ↔
      ∀ i h, c.Innermost i h → ∀ k, c.RegistersBefore h k → k.covers i = false := by
  constructor
  · intro hp i h hi
    exact (hn.handler?_eq_innermost_iff hi).1 ((hp i h).2 hi)
  · intro hbehind i h
    refine ⟨fun hfound => ?_, fun hi => (hn.handler?_eq_innermost_iff hi).2 (hbehind i h hi)⟩
    obtain ⟨hmem, hcovers, -⟩ := (handler?_eq_some_iff hn.nodup).1 hfound
    obtain ⟨g, hg, -⟩ := hn.exists_innermost hmem hcovers
    have hgfound := (hn.handler?_eq_innermost_iff hg).2 (hbehind i g hg)
    rw [hfound, Option.some.injEq] at hgfound
    rwa [hgfound]

/-- Registering each handler before those inside it is enough. -/
theorem prefersInnermost_of_outer_first (hn : c.Nested)
    (ho : c.handlers.Pairwise fun h k => ¬h.Within k) : c.PrefersInnermost := by
  rw [hn.prefersInnermost_iff]
  intro i h hi k hk
  rw [Bool.eq_false_iff]
  intro hcovers
  have hmem : k ∈ c.handlers := hk.subset (by simp)
  have hne : k ≠ h := by
    rintro rfl
    simpa using hn.nodup.sublist hk
  rcases hn.width_lt hi.mem hmem hne.symm hi.covers hcovers with ⟨hwithin, -⟩ | ⟨-, hlt⟩
  · exact List.pairwise_iff_forall_sublist.1 ho hk hwithin
  · exact absurd hlt (Nat.lt_asymm (hi.least k hmem hcovers hne))

end Nested

/-! ### Other orders -/

end Code

namespace Draft

/-- The draft with other handlers. -/
def withHandlers (d : Draft) (handlers : List LabelledHandler) : Draft :=
  { d with handlers }

/-- No directive looks at the handlers that are there. -/
theorem perform_withHandlers {d d' : Draft} {directive : Directive}
    (hd : d.perform directive = .ok d') (handlers : List LabelledHandler) :
    d'.withHandlers handlers = d.withHandlers handlers ∨
      (d.withHandlers handlers).perform directive = .ok (d'.withHandlers handlers) := by
  cases directive with
  | handler h =>
      cases hd
      exact Or.inl rfl
  | bind l =>
      right
      simp only [perform, bind] at hd
      split at hd <;> cases hd
      rename_i hl
      simp only [perform, bind, withHandlers]
      rw [hl]
  | _ =>
      cases hd
      exact Or.inr rfl

theorem Written.append {d : Draft} (h : d.Written) (handlers : List LabelledHandler) :
    (d.withHandlers (d.handlers ++ handlers)).Written := by
  induction handlers generalizing d with
  | nil => rwa [List.append_nil]
  | cons handler handlers ih =>
      have hperform : d.perform (.handler handler) =
          .ok { d with handlers := d.handlers ++ [handler] } := rfl
      have hnext := ih (h.perform hperform)
      rwa [List.append_assoc] at hnext

/-- Whatever is written can be written with other handlers. -/
theorem Written.withHandlers {d : Draft} (h : d.Written) (handlers : List LabelledHandler) :
    (d.withHandlers handlers).Written := by
  induction h with
  | start name firstLine params isGenerator =>
      exact (Written.start name firstLine params isGenerator).append handlers
  | perform _ hd ih =>
      rcases perform_withHandlers hd handlers with heq | hperform
      · rwa [heq]
      · exact ih.perform hperform

theorem boundLabels_withHandlers (d : Draft) (handlers : List LabelledHandler) (n : ℕ)
    (labels : List (Option ℕ)) :
    (d.withHandlers handlers).boundLabels n labels = d.boundLabels n labels := by
  induction labels generalizing n with
  | nil => rfl
  | cons label labels ih =>
      cases label with
      | none => rfl
      | some i => rw [boundLabels, boundLabels, ih]

/-- **The handlers are checked last**, and nothing else depends on them. -/
theorem finish_eq_bind (d : Draft) :
    d.finish = (d.withHandlers []).finish.bind fun c =>
      (d.handlers.mapM (d.resolveHandler c.labels)).map c.reordered := by
  have hlabels : (d.withHandlers []).boundLabels 0 (d.withHandlers []).labels.toList =
      d.boundLabels 0 d.labels.toList := boundLabels_withHandlers ..
  have hjumps : (d.withHandlers []).jumpTargets = d.jumpTargets := rfl
  have hinstructions : (d.withHandlers []).instructions = d.instructions := rfl
  have hrows : (d.withHandlers []).rows = d.rows := rfl
  have hgenerator : (d.withHandlers []).isGenerator = d.isGenerator := rfl
  unfold finish refuse
  simp only [Bind.bind, Except.bind, pure, Except.pure]
  rw [hlabels, hjumps, hinstructions, hrows, hgenerator]
  -- one check after the other, on both sides at once
  rcases d.instructions.getLast? with - | last
  · rfl
  dsimp only
  by_cases hsize : d.rows.size > maxSize
  · rw [if_pos hsize, if_pos hsize]
    rfl
  rw [if_neg hsize, if_neg hsize]
  rcases d.boundLabels 0 d.labels.toList with e | labels
  · rfl
  dsimp only
  rcases d.jumpTargets labels.toArray with e | targets
  · rfl
  dsimp only
  by_cases hends : (!last.isTerminator || targets.any (d.rows.size ≤ ·)) = true
  · rw [if_pos hends, if_pos hends]
    rfl
  rw [if_neg hends, if_neg hends]
  by_cases hyields : (!d.isGenerator && d.instructions.contains .yield) = true
  · rw [if_pos hyields, if_pos hyields]
    rfl
  rw [if_neg hyields, if_neg hyields]
  -- what is left are the handlers
  show _ = Except.map _ _
  cases d.handlers.mapM (d.resolveHandler labels.toArray) <;> rfl

theorem finish_eq_ok_iff {d : Draft} {c : Code} :
    d.finish = .ok c ↔ ∃ bare handlers, (d.withHandlers []).finish = .ok bare ∧
      d.handlers.mapM (d.resolveHandler bare.labels) = .ok handlers ∧
      bare.reordered handlers = c := by
  rw [finish_eq_bind]
  cases (d.withHandlers []).finish with
  | error e => simp [Except.bind]
  | ok bare =>
      cases hresolved : d.handlers.mapM (d.resolveHandler bare.labels) with
      | error e => simp [Except.bind, Except.map, hresolved]
      | ok handlers => simp [Except.bind, Except.map, hresolved]

theorem mapM_eq_ok_iff {α β : Type} {f : α → Except BuildError β} {xs : List α} {ys : List β} :
    xs.mapM f = .ok ys ↔ List.Forall₂ (fun x y => f x = .ok y) xs ys := by
  induction xs generalizing ys with
  | nil => simp [pure, Except.pure, eq_comm]
  | cons x xs ih =>
      rw [List.mapM_cons, List.forall₂_cons_left_iff]
      simp only [← ih]
      cases hx : f x with
      | error e => simp [Bind.bind, Except.bind]
      | ok y =>
          cases hxs : xs.mapM f with
          | error e => simp [Bind.bind, Except.bind]
          | ok rest => simp [Bind.bind, Except.bind, pure, Except.pure, eq_comm]

/-- What a check makes of the items of a list can come in every order. -/
theorem exists_mapM_of_perm {α β : Type} {f : α → Except BuildError β} {xs : List α}
    {ys zs : List β} (h : xs.mapM f = .ok ys) (hp : zs.Perm ys) :
    ∃ ws : List α, ws.mapM f = .ok zs := by
  obtain ⟨ws, hws, -⟩ := List.perm_comp_forall₂ hp (mapM_eq_ok_iff.1 h).flip
  exact ⟨ws, mapM_eq_ok_iff.2 hws.flip⟩

end Draft

namespace Code

variable {c : Code} {handlers : List Handler}

/-- **The checks do not depend on the order of the handlers.** -/
theorem Built.reordered (h : c.Built) (hp : handlers.Perm c.handlers) :
    (c.reordered handlers).Built := by
  obtain ⟨d, hwritten, hfinish⟩ := h
  obtain ⟨bare, resolved, hbare, hresolved, rfl⟩ := Draft.finish_eq_ok_iff.1 hfinish
  obtain ⟨labelled, hlabelled⟩ := Draft.exists_mapM_of_perm hresolved hp
  exact ⟨d.withHandlers labelled, hwritten.withHandlers labelled,
    Draft.finish_eq_ok_iff.2 ⟨bare, handlers, hbare, hlabelled, rfl⟩⟩

theorem innermost_reordered (hp : handlers.Perm c.handlers) {i : ℕ} {h : Handler} :
    (c.reordered handlers).Innermost i h ↔ c.Innermost i h := by
  constructor
  · rintro ⟨hmem, hcovers, hleast⟩
    exact ⟨hp.mem_iff.1 hmem, hcovers, fun k hk => hleast k (hp.mem_iff.2 hk)⟩
  · rintro ⟨hmem, hcovers, hleast⟩
    exact ⟨hp.mem_iff.2 hmem, hcovers, fun k hk => hleast k (hp.mem_iff.1 hk)⟩

theorem Nested.reordered (hn : c.Nested) (hp : handlers.Perm c.handlers) :
    (c.reordered handlers).Nested :=
  (hp.pairwise_iff fun hf => hf.symm).2 hn

/-- If the innermost handler is found in every order, no handler is within another one: the
innermost one around the first instruction of a range would not be found if it came first. -/
theorem Nested.not_within (hb : c.Built) (hn : c.Nested)
    (hall : ∀ handlers, handlers.Perm c.handlers → (c.reordered handlers).PrefersInnermost)
    {h k : Handler} (hh : h ∈ c.handlers) (hk : k ∈ c.handlers) (hne : h.range ≠ k.range) :
    ¬h.Within k := by
  intro hwithin
  obtain ⟨d, -, hfinishes⟩ := hb.exists_finishes
  have hfirst : h.covers h.start = true :=
    Handler.covers_iff.2 ⟨Nat.le_refl _, (hfinishes.handlers h hh).1⟩
  obtain ⟨g, hg, hle⟩ := hn.exists_innermost hh hfirst
  have hgk : k ≠ g := by
    rintro rfl
    exact absurd (hwithin.width_lt hne hfirst) (Nat.not_lt.2 hle)
  have hp : (g :: c.handlers.erase g).Perm c.handlers := (List.perm_cons_erase hg.mem).symm
  have hbehind := (hn.reordered hp).prefersInnermost_iff.1 (hall _ hp) _ _
    ((innermost_reordered hp).2 hg) k
    (List.cons_sublist_cons.2 (List.singleton_sublist.2 ((List.mem_erase_of_ne hgk).2 hk)))
  rw [hwithin.covers hfirst] at hbehind
  cases hbehind

theorem Nested.prefersInnermost_reordered_iff (hb : c.Built) (hn : c.Nested) :
    (∀ handlers, handlers.Perm c.handlers → (c.reordered handlers).PrefersInnermost) ↔
      c.handlers.Pairwise Handler.Apart := by
  constructor
  · intro hall
    rw [List.pairwise_iff_forall_sublist]
    intro h k hsub
    have hh : h ∈ c.handlers := hsub.subset (by simp)
    have hk : k ∈ c.handlers := hsub.subset (by simp)
    obtain ⟨hranges, hwithin | hwithin | hapart⟩ := List.pairwise_iff_forall_sublist.1 hn hsub
    · exact absurd hwithin (hn.not_within hb hall hh hk hranges)
    · exact absurd hwithin (hn.not_within hb hall hk hh hranges.symm)
    · exact hapart
  · intro hapart handlers hp
    refine (hn.reordered hp).prefersInnermost_iff.2 fun i h hi k hk => ?_
    have hbefore : [h, k].Pairwise Handler.Apart :=
      ((hp.pairwise_iff fun ha => ha.symm).2 hapart).sublist hk
    exact (List.rel_of_pairwise_cons hbefore (List.mem_singleton_self k)).covers_eq_false hi.covers

/-- **When the innermost handler is found.**  Nothing is found exactly where no handler covers the
instruction, and everywhere else there is one innermost handler.  At an instruction it is found
exactly if nothing that was registered behind it covers the instruction; in the whole code unit, if
each handler was registered before those inside it; and in every order of registration, all of which
pass the checks, exactly if no two ranges meet. -/
theorem innermost_found_iff (hb : c.Built) (hn : c.Nested) :
    (∀ i, c.handler? i = none ↔ ∀ h ∈ c.handlers, h.covers i = false) ∧
    (∀ i, (∃ h, c.Innermost i h) ↔ ∃ h ∈ c.handlers, h.covers i = true) ∧
    (∀ i h, c.Innermost i h →
      (c.handler? i = some h ↔ ∀ k, c.RegistersBefore h k → k.covers i = false)) ∧
    (c.handlers.Pairwise (fun h k => ¬h.Within k) → c.PrefersInnermost) ∧
    (∀ handlers, handlers.Perm c.handlers → (c.reordered handlers).Built) ∧
    ((∀ handlers, handlers.Perm c.handlers → (c.reordered handlers).PrefersInnermost) ↔
      c.handlers.Pairwise Handler.Apart) := by
  refine ⟨fun _ => handler?_eq_none_iff, fun i => ⟨?_, ?_⟩,
    fun _ _ => hn.handler?_eq_innermost_iff, hn.prefersInnermost_of_outer_first,
    fun _ => hb.reordered, hn.prefersInnermost_reordered_iff hb⟩
  · rintro ⟨h, hi⟩
    exact ⟨h, hi.mem, hi.covers⟩
  · rintro ⟨h, hh, hi⟩
    obtain ⟨g, hg, -⟩ := hn.exists_innermost hh hi
    exact ⟨g, hg⟩

/-- A code unit with a range around another one, which was registered first. -/
def innerFirst : Code where
  name := "nested"
  firstLine := 1
  params := 0
  locals := 0
  isGenerator := false
  rows := #[⟨.nop, none, false⟩, ⟨.nop, none, false⟩, ⟨.nop, none, false⟩,
    ⟨.loadConst 0, none, false⟩, ⟨.ret, none, false⟩, ⟨.raise, none, false⟩,
    ⟨.raise, none, false⟩]
  labels := #[0, 1, 2, 3, 5, 6]
  handlers := [⟨1, 2, 5, 0⟩, ⟨0, 3, 6, 0⟩]
  consts := #[.null]

theorem built_innerFirst : innerFirst.Built :=
  Source.built_of_build
    (s := ⟨"nested", 1, 0, false, [.label, .label, .label, .label, .label, .label,
      .bind ⟨0⟩, .emit .nop, .bind ⟨1⟩, .emit .nop, .bind ⟨2⟩, .emit .nop, .bind ⟨3⟩, .load .null,
      .emit .ret, .bind ⟨4⟩, .emit .raise, .bind ⟨5⟩, .emit .raise,
      .handler ⟨⟨1⟩, ⟨2⟩, ⟨4⟩, 0⟩, .handler ⟨⟨0⟩, ⟨3⟩, ⟨5⟩, 0⟩]⟩)
    rfl

theorem nested_innerFirst : innerFirst.Nested := by
  simp [Nested, innerFirst, Handler.Fits, Handler.range, Handler.Within, Handler.Apart]

theorem innermost_innerFirst : innerFirst.Innermost 1 ⟨1, 2, 5, 0⟩ :=
  ⟨by decide, by decide, by decide⟩

/-- Registered behind it, the outer handler takes the exceptions of the inner one. -/
theorem inner_first_lost :
    innerFirst.Built ∧ innerFirst.Nested ∧ innerFirst.Innermost 1 ⟨1, 2, 5, 0⟩ ∧
      innerFirst.handler? 1 = some ⟨0, 3, 6, 0⟩ ∧ ¬innerFirst.PrefersInnermost := by
  refine ⟨built_innerFirst, nested_innerFirst, innermost_innerFirst, by decide, fun hprefers => ?_⟩
  have hfound := (hprefers 1 _).2 innermost_innerFirst
  exact absurd hfound (by decide)

/-- Registered in front, it leaves them to the inner one. -/
theorem outer_first_found :
    (innerFirst.reordered [⟨0, 3, 6, 0⟩, ⟨1, 2, 5, 0⟩]).Built ∧
      (innerFirst.reordered [⟨0, 3, 6, 0⟩, ⟨1, 2, 5, 0⟩]).PrefersInnermost ∧
      (innerFirst.reordered [⟨0, 3, 6, 0⟩, ⟨1, 2, 5, 0⟩]).handler? 1 = some ⟨1, 2, 5, 0⟩ := by
  have hp : [⟨0, 3, 6, 0⟩, ⟨1, 2, 5, 0⟩].Perm innerFirst.handlers := List.Perm.swap ..
  have hbuilt := built_innerFirst.reordered hp
  have hprefers := (innermost_found_iff hbuilt (nested_innerFirst.reordered hp)).2.2.2.1
    (by simp [reordered, Handler.Within])
  exact ⟨hbuilt, hprefers,
    (hprefers 1 _).2 ((innermost_reordered hp).2 innermost_innerFirst)⟩

end Code

end Tracepoint
