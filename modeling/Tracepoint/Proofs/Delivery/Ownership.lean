/-
**Whose the disabled sites are.**

A callback asks for a site to be disabled by its answer, and the site is entered when the callback
is over.  While it runs, it may give its own slot back; somebody may take the slot again, even the
callback itself.  The entry is made all the same: it then stands in a slot without an owner, or in
that of another owner who never asked for it and is not called.

This module says exactly which entries go astray.  An entry is the owner's as long as the slot has
had an owner since the callback was called that asked for it.  As giving a slot back lifts its
entries, this is so of an entry in force exactly if the slot had an owner throughout the run of
that callback.

Main definitions:

* `Tracepoint.State.Owned`, `Tracepoint.State.Claims`, `Tracepoint.State.Frees` — a slot has an
  owner, gets one and loses it;
* `Tracepoint.Machine.Asks` — a callback, called at a known step, asks for a site to be disabled;
* `Tracepoint.Machine.AskedInTime` — the slot had an owner throughout the run of the callback;
* `Tracepoint.Machine.OwnersWish` — **the present owner of the slot has asked for the entry**.

Main results:

* `Tracepoint.Machine.owned_advance` — what one step does to the owners;
* `Tracepoint.Machine.exists_asks` — a callback has asked for every site that is entered;
* `Tracepoint.Machine.orphan_iff` — which entries stand in a slot without an owner;
* `Tracepoint.Machine.ownersWish_iff` — which entries are the owner's;
* `Tracepoint.Machine.owners_start_clean_iff` — **when all entries are their owners'**, and what
  an owner gets then.
-/

import Mathlib.Data.Nat.Init
import Tracepoint.Proofs.Delivery.Disabling

set_option relaxedAutoImplicit false
set_option autoImplicit false

namespace Tracepoint

variable {σ : Type}

/-- A slot is taken only if it has no owner, and nothing is lifted then. -/
theorem Registry.claims.vacancy {r : Registry} {t : Tool} {op : Operation} (h : r.claims t op) :
    (r.slot t).inUse = false ∧ ¬ r.lifts t op := by
  obtain ⟨hok, name, rfl⟩ := h
  refine ⟨?_, fun hl => hl.2⟩
  rcases r.apply_cases (.claim t name) with ⟨hno, -⟩ | ⟨-, out⟩
  · rw [hok] at hno
    cases hno
  · generalize (r.apply (.claim t name)).1 = r' at out
    cases out with
    | claim vacancy => rw [Slot.inUse, vacancy, Option.isSome_none]

/-! ### One step -/

namespace State

/-- The beginning of a run with an empty registry. -/
def fresh (heap : Heap) (memory : σ) (script : Script σ) : State σ :=
  .initial ⟨.empty, heap, memory⟩ script

def Owned (s : State σ) (t : Tool) : Prop := (s.world.registry.slot t).inUse = true

def Claims (s : State σ) (t : Tool) : Prop :=
  ∃ op, s.change? = some (.operate op) ∧ s.world.registry.claims t op

def Frees (s : State σ) (t : Tool) : Prop :=
  ∃ op, s.change? = some (.operate op) ∧ s.world.registry.frees t op

theorem Frees.lifts {s : State σ} {t : Tool} (h : s.Frees t) : s.Lifts t := by
  obtain ⟨op, hop, hok, rfl⟩ := h
  exact ⟨_, hop, hok, Or.inl rfl⟩

theorem Disables.not_claims {s : State σ} {t : Tool} {site : Site} (h : s.Disables t site)
    (u : Tool) : ¬ s.Claims u := by
  rintro ⟨op, hop, -⟩
  rw [Disables, hop] at h
  cases h

end State

namespace Machine

/-- **A slot has an owner after a step if it was taken, or had one and was not given back.** -/
theorem owned_advance (m : Machine σ) (s : State σ) (t : Tool) :
    (m.advance s).Owned t ↔ s.Claims t ∨ (s.Owned t ∧ ¬ s.Frees t) := by
  rw [State.Owned, m.registry_advance]
  cases hc : s.change? with
  | none => simp [State.Owned, State.Claims, State.Frees, hc]
  | some change =>
      cases change with
      | operate op =>
          have hclaims : s.Claims t ↔ s.world.registry.claims t op := by
            simp [State.Claims, hc]
          have hfrees : s.Frees t ↔ s.world.registry.frees t op := by
            simp [State.Frees, hc]
          rw [hclaims, hfrees]
          exact Registry.inUse_apply ..
      | disable u site =>
          have hclaims : ¬ s.Claims t := State.Disables.not_claims hc t
          have hfrees : ¬ s.Frees t := fun h => State.Disables.not_lifts hc t h.lifts
          have hslot : ((s.world.registry.disable u site).slot t).inUse =
              (s.world.registry.slot t).inUse := by
            rw [Registry.slot_disable]
            split <;> rfl
          simp only [hclaims, hfrees, false_or, not_false_eq_true, and_true]
          exact Bool.eq_iff_iff.1 hslot

/-! ### Owners in a run -/

section Owners

variable {m : Machine σ} {s : State σ} {t : Tool} {site : Site} {i k n : ℕ}

/-- An owner stays as long as the slot is not given back. -/
theorem owned_of_not_frees (hin : i ≤ n) (hi : (m.states s i).Owned t)
    (hkept : ∀ j, i ≤ j → j < n → ¬ (m.states s j).Frees t) : (m.states s n).Owned t := by
  induction n, hin using Nat.le_induction with
  | base => exact hi
  | succ n hin ih =>
      rw [states_succ, owned_advance]
      exact Or.inr ⟨ih fun j hij hj => hkept j hij (by omega), hkept n hin (by omega)⟩

/-- A slot stays without an owner as long as it is not taken. -/
theorem not_owned_of_not_claims (hin : i ≤ n) (hi : ¬ (m.states s i).Owned t)
    (hkept : ∀ j, i ≤ j → j < n → ¬ (m.states s j).Claims t) : ¬ (m.states s n).Owned t := by
  induction n, hin using Nat.le_induction with
  | base => exact hi
  | succ n hin ih =>
      rw [states_succ, owned_advance]
      rintro (hc | ⟨ho, -⟩)
      · exact hkept n hin (by omega) hc
      · exact ih (fun j hij hj => hkept j hij (by omega)) ho

/-- From the step that enters a site on, the owner stays as long as the sites are not lifted. -/
theorem owned_of_unlifted (hin : i ≤ n) (hi : (m.states s i).Owned t)
    (hdis : (m.states s i).Disables t site) (hkept : m.Unlifted s t i n) :
    (m.states s n).Owned t := by
  -- to give the slot back would lift its sites, and the step that enters one does not do it
  refine owned_of_not_frees hin hi fun j hij hj hfrees => ?_
  rcases Nat.lt_or_eq_of_le hij with hlt | rfl
  · exact hkept j hlt hj hfrees.lifts
  · exact hdis.not_lifts t hfrees.lifts

def Unclaimed (m : Machine σ) (s : State σ) (t : Tool) (i n : ℕ) : Prop :=
  ∀ j, i < j → j < n → ¬ (m.states s j).Claims t

/-- **A site that was entered is without an owner exactly if it was from the beginning**, as long
as it is not lifted. -/
theorem not_owned_iff (hin : i < n) (hdis : (m.states s i).Disables t site)
    (hkept : m.Unlifted s t i n) :
    ¬ (m.states s n).Owned t ↔ ¬ (m.states s i).Owned t ∧ m.Unclaimed s t i n := by
  constructor
  · intro hn
    refine ⟨fun hi => hn (owned_of_unlifted (Nat.le_of_lt hin) hi hdis hkept),
      fun j hij hj hclaims => hn ?_⟩
    -- who takes the slot at step `j` keeps it, as nothing is lifted any more
    have hj' : (m.states s (j + 1)).Owned t := by
      rw [states_succ, owned_advance]
      exact Or.inl hclaims
    exact owned_of_not_frees hj hj' fun l hjl hl hfrees =>
      hkept l (by omega) hl hfrees.lifts
  · rintro ⟨hi, hunclaimed⟩
    refine not_owned_of_not_claims (Nat.le_of_lt hin) hi fun j hij hj hclaims => ?_
    rcases Nat.lt_or_eq_of_le hij with hlt | rfl
    · exact hunclaimed j hlt hj hclaims
    · exact hdis.not_claims t hclaims

end Owners

/-! ### Entries without an owner -/

/-- A site was entered when its slot had no owner, and since then it was not lifted, nor was the
slot taken. -/
def CameTooLate (m : Machine σ) (s : State σ) (t : Tool) (site : Site) (n : ℕ) : Prop :=
  ∃ i < n, (m.states s i).Disables t site ∧ ¬ (m.states s i).Owned t ∧ m.Unlifted s t i n ∧
    m.Unclaimed s t i n

section Fresh

variable {m : Machine σ} {heap : Heap} {memory : σ} {script : Script σ} {t : Tool} {site : Site}
  {n : ℕ}

/-- From the empty registry on, the disabled sites are those that were entered and not lifted
since. -/
theorem mem_disabled_fresh :
    site ∈ ((m.states (.fresh heap memory script) n).world.registry.slot t).disabled ↔
      ∃ i < n, (m.states (.fresh heap memory script) i).Disables t site ∧
        m.Unlifted (.fresh heap memory script) t i n := by
  have h₀ : site ∉ (Registry.empty.slot t).disabled := by
    rw [Registry.slot_empty]
    exact Std.ExtTreeSet.not_mem_empty
  rw [mem_disabled_states]
  exact ⟨fun h => h.resolve_left fun hfresh => h₀ hfresh.1, Or.inr⟩

/-- **The entries without an owner are those that came too late.** -/
theorem orphan_iff :
    site ∈ ((m.states (.fresh heap memory script) n).world.registry.slot t).disabled ∧
        ¬ (m.states (.fresh heap memory script) n).Owned t ↔
      m.CameTooLate (.fresh heap memory script) t site n := by
  rw [mem_disabled_fresh]
  constructor
  · rintro ⟨⟨i, hin, hdis, hkept⟩, hn⟩
    obtain ⟨hi, hunclaimed⟩ := (not_owned_iff hin hdis hkept).1 hn
    exact ⟨i, hin, hdis, hi, hkept, hunclaimed⟩
  · rintro ⟨i, hin, hdis, hi, hkept, hunclaimed⟩
    exact ⟨⟨i, hin, hdis, hkept⟩, (not_owned_iff hin hdis hkept).2 ⟨hi, hunclaimed⟩⟩

theorem mem_disabled_of_claims (h : (m.states (.fresh heap memory script) n).Claims t) :
    site ∈ ((m.states (.fresh heap memory script) (n + 1)).world.registry.slot t).disabled ↔
      m.CameTooLate (.fresh heap memory script) t site n := by
  have hdis : ¬ (m.states (.fresh heap memory script) n).Disables t site := fun hd =>
    hd.not_claims t h
  obtain ⟨op, hop, hclaims⟩ := h
  obtain ⟨hvacant, hnl⟩ := hclaims.vacancy
  have hn : ¬ (m.states (.fresh heap memory script) n).Owned t := by
    rw [State.Owned, hvacant]
    exact Bool.false_ne_true
  have hkept : ¬ (m.states (.fresh heap memory script) n).Lifts t := by
    rintro ⟨op', hop', hl⟩
    rw [hop] at hop'
    cases hop'
    exact hnl hl
  rw [← orphan_iff, states_succ, mem_disabled_advance]
  simp only [hdis, hkept, hn, false_or, not_false_eq_true, and_true]

end Fresh

/-! ### Who has asked for an entry -/

/-- A slot has an owner in all states from `k` to `n`. -/
def OwnedThroughout (m : Machine σ) (s : State σ) (t : Tool) (k n : ℕ) : Prop :=
  ∀ j, k ≤ j → j ≤ n → (m.states s j).Owned t

/-- A callback of a tool, called at step `k`, asks at step `i` for a site to be disabled. -/
def Asks (m : Machine σ) (s : State σ) (t : Tool) (site : Site) (k i : ℕ) : Prop :=
  (m.states s i).Disables t site ∧
    ∃ level rest, (m.states s i).levels = level :: rest ∧ m.RunsSince s k i level rest

/-- The slot had an owner throughout the run of the callback that asks at step `i`. -/
def AskedInTime (m : Machine σ) (s : State σ) (t : Tool) (site : Site) (i : ℕ) : Prop :=
  ∃ k, m.Asks s t site k i ∧ m.OwnedThroughout s t k i

/-- **The present owner of a slot has asked for an entry**: the slot has had an owner ever since
the callback was called that asked for it, and the entry was not lifted. -/
def OwnersWish (m : Machine σ) (s : State σ) (t : Tool) (site : Site) (n : ℕ) : Prop :=
  ∃ k i, i < n ∧ m.Asks s t site k i ∧ m.Unlifted s t i n ∧ m.OwnedThroughout s t k n

/-- A callback has asked for every site that is entered. -/
theorem exists_asks {m : Machine σ} {s : State σ} (hs : s.levels = []) {t : Tool} {site : Site}
    {i : ℕ} (h : (m.states s i).Disables t site) : ∃ k, m.Asks s t site k i := by
  obtain ⟨level, rest, hl, -, -⟩ := h.exists_level
  have hsuffix : level :: rest <:+ (m.states s i).levels := by simp [hl]
  obtain ⟨k, hk⟩ := exists_runsSince hs hsuffix
  exact ⟨k, h, level, rest, hl, hk⟩

/-- **An entry is the owner's exactly if it was asked for in time** and was not lifted since. -/
theorem ownersWish_iff {m : Machine σ} {s : State σ} {t : Tool} {site : Site} {n : ℕ} :
    m.OwnersWish s t site n ↔ ∃ i < n, m.AskedInTime s t site i ∧ m.Unlifted s t i n := by
  constructor
  · rintro ⟨k, i, hin, hasks, hkept, howned⟩
    exact ⟨i, hin, ⟨k, hasks, fun j hkj hji => howned j hkj (by omega)⟩, hkept⟩
  · rintro ⟨i, hin, ⟨k, hasks, howned⟩, hkept⟩
    refine ⟨k, i, hin, hasks, hkept, fun j hkj hjn => ?_⟩
    rcases Nat.le_total j i with hji | hij
    · exact howned j hkj hji
    · have hki : k < i := by
        obtain ⟨-, level, rest, -, hruns⟩ := hasks
        exact hruns.lt
      exact owned_of_unlifted hij (howned i (Nat.le_of_lt hki) (Nat.le_refl i)) hasks.1
        fun l hil hlj => hkept l hil (by omega)

/-- **When entries are their owners'.**  After any number of steps from the empty registry, each
entry stands in a slot with an owner exactly if none came too late; a new owner finds no entry
exactly if none came too late for its slot; each entry is its owner's wish exactly if each one in
force was asked for in time; and then an owner gets each report that it has armed and has a
callback for, unless it has asked for the contrary itself. -/
theorem owners_start_clean_iff (behave : Callback → Payload → Script σ) (heap : Heap) (memory : σ)
    (script : Script σ) (n : ℕ) :
    let m := Machine.of behave
    let s := State.fresh heap memory script
    ((∀ t, ∀ site ∈ ((m.states s n).world.registry.slot t).disabled, (m.states s n).Owned t) ↔
        ∀ t site, ¬ m.CameTooLate s t site n) ∧
      (∀ t, (m.states s n).Claims t →
        ((∀ site, site ∉ ((m.states s (n + 1)).world.registry.slot t).disabled) ↔
          ∀ site, ¬ m.CameTooLate s t site n)) ∧
      ((∀ t, ∀ site ∈ ((m.states s n).world.registry.slot t).disabled, m.OwnersWish s t site n) ↔
        ∀ t site, ∀ i < n, (m.states s i).Disables t site → m.Unlifted s t i n →
          ∃ j < n, m.AskedInTime s t site j ∧ m.Unlifted s t j n) ∧
      ∀ t o c,
        (∀ site ∈ ((m.states s n).world.registry.slot t).disabled, m.OwnersWish s t site n) →
        (((m.states s n).world.registry.slot t).effective o.payload.code).has o.event = true →
        ((m.states s n).world.registry.slot t).callback? o.event = some c →
        (∀ site, m.OwnersWish s t site n → ¬ site.Covers o.site) →
        (m.states s n).world.registry.isArmed o.event = true ∧
          (t, c) ∈ ((m.states s n).world.registry.dispatch o).pending := by
  intro m s
  refine ⟨⟨fun h t site hlate => ?_, fun h t site hsite => ?_⟩, fun t hclaims => ?_,
    ⟨fun h t site i hin hdis hkept => ?_, fun h t site hsite => ?_⟩,
    fun t o c hwish he hc hsilent => ?_⟩
  · obtain ⟨hsite, hn⟩ := orphan_iff.2 hlate
    exact hn (h t site hsite)
  · by_contra hn
    exact h t site (orphan_iff.1 ⟨hsite, hn⟩)
  · exact forall_congr' fun site => not_congr (mem_disabled_of_claims hclaims)
  · exact ownersWish_iff.1 (h t site (mem_disabled_fresh.2 ⟨i, hin, hdis, hkept⟩))
  · obtain ⟨i, hin, hdis, hkept⟩ := mem_disabled_fresh.1 hsite
    exact ownersWish_iff.2 (h t site i hin hdis hkept)
  · exact (reachable_states m .empty n).mem_dispatch_of_enabled he hc fun site hsite =>
      hsilent site (hwish site hsite)

/-! ### A slot that changes hands -/

/-- Operations one after the other, whose replies do not matter. -/
def operations (ops : List Operation) (next : Script Unit) : Script Unit :=
  ops.foldr (fun op script => .operate op fun _ => script) next

/-- A tool takes the first slot and listens for lines. -/
def settle (name : String) (c : Callback) : List Operation :=
  [.claim .debugger name, .register .debugger .line (some c),
    .setGlobal .debugger (.single .line)]

def lineFour : Occurrence := ⟨.line, .foreign 7 "unit" 1, 4, .line 1⟩

/-- One tool listens while the line is reported, and then another one. -/
def takeover : Script Unit :=
  operations (settle "first" ⟨0, .line⟩) <| .fire lineFour fun _ =>
    operations (settle "second" ⟨1, .line⟩) <| .fire lineFour fun _ => .done

/-- The callback of the first tool gives the slot back and asks for no further reports. -/
def leave : Callback → Payload → Script Unit := fun c _ =>
  if c.id = 0 then .operate (.free .debugger) fun _ => .answer (.ok .disable) else .done

/-- After eight steps no callback runs and the site is disabled in a slot without an owner.  The
next owner, which has armed the line and has a callback for it after eleven steps, has it disabled
from the beginning and is never called. -/
theorem entry_left_behind :
    let s := (Machine.of leave).states (.fresh .empty () takeover)
    (s 8).dispatches.isEmpty = true ∧
      lineFour.site ∈ ((s 8).world.registry.slot .debugger).disabled ∧
      ((s 8).world.registry.slot .debugger).inUse = false ∧
      ((s 11).world.registry.slot .debugger).callback? .line = some ⟨1, .line⟩ ∧
      (((s 11).world.registry.slot .debugger).effective (.foreign 7)).has .line = true ∧
      lineFour.site ∈ ((s 11).world.registry.slot .debugger).disabled ∧
      ((Machine.of leave).invocations (.fresh .empty () takeover) 20).map (·.callback.id) =
        [0] := by
  decide +kernel

end Machine

end Tracepoint
