/-
**Operations on different slots commute.**

Two operations that are addressed to different slots can be done in either order: the same is
replied to each of them, and the registry is the same in the end.  What they have in common, the
union of armed events and the version, is read off the slots and counted, so that it is enough that
each of them leaves the slot of the other one as it is.

There is one way for an operation to reach into other slots.  When the last owner gives its slot
back, all that is kept by code unit is forgotten, and which slot is the last one to be given back
depends on the order.  In a clean registry there is nothing to be forgotten then.  A registry is
clean at all times if callbacks do not operate on it: then a callback that asks for a site to be
disabled still has its slot when it answers.

Main definitions:

* `Tracepoint.State.meddles` — a callback is about to operate on the registry.

Main results:

* `Tracepoint.Registry.Clean.slot_apply_apply` — what two operations do to the slots;
* `Tracepoint.Machine.clean_states` — registries stay clean **as long as no callback meddles**;
* `Tracepoint.Machine.operations_commute` — **operations on different slots commute**.
-/

import Tracepoint.Proofs.Delivery.Ownership
import Tracepoint.Proofs.Registry.Locality
import Tracepoint.Proofs.Registry.Tidiness

set_option relaxedAutoImplicit false
set_option autoImplicit false

namespace Tracepoint

variable {σ : Type}

namespace Registry

/-! ### Registries with the same slots -/

/-- Registries that are reached are the same if their slots and versions are. -/
theorem Reachable.ext_slot {r r' : Registry} (h : r.Reachable) (h' : r'.Reachable)
    (hslots : ∀ t, r'.slot t = r.slot t) (hversion : r'.version = r.version) : r' = r := by
  have htables : r'.tables = r.tables := h.packed.ext h'.packed hslots
  have harmed : r'.armed = r.armed := by rw [h.armed_eq, h'.armed_eq, htables]
  obtain ⟨tables, armed, version⟩ := r
  obtain ⟨tables', armed', version'⟩ := r'
  obtain rfl : tables' = tables := htables
  obtain rfl : armed' = armed := harmed
  obtain rfl : version' = version := hversion
  rfl

/-- An operation makes the version grow by one if it is accepted. -/
theorem version_apply (r : Registry) (op : Operation) :
    (r.apply op).1.version = r.version + (r.apply op).2.isOk.toNat := by
  rcases r.apply_cases op with ⟨hok, hr⟩ | ⟨hok, out⟩
  · rw [hok, hr]
    rfl
  · rw [hok, out.version_eq]
    rfl

/-! ### Two operations -/

section Commutation

variable {r : Registry} {op op' : Operation} {t u : Tool}

/-- What is replied to an operation does not depend on one that another slot has had before. -/
theorem Clean.reply_apply (h : r.Clean) (hop : op.tool? = some t) (hop' : op'.tool? = some u)
    (htu : t ≠ u) : ((r.apply op).1.apply op').2 = (r.apply op').2 :=
  (apply_congr hop' (slot_apply_of_ne h hop htu)).1

/-- **What two operations do to the slots**: each does to its slot what it would do alone. -/
theorem Clean.slot_apply_apply (h : r.Clean) (hr : r.Reachable) (hop : op.tool? = some t)
    (hop' : op'.tool? = some u) (htu : t ≠ u) (v : Tool) :
    ((r.apply op).1.apply op').1.slot v =
      if v = t then (r.apply op).1.slot t else if v = u then (r.apply op').1.slot u
      else r.slot v := by
  by_cases hvu : v = u
  · subst hvu
    rw [if_neg htu.symm, if_pos rfl]
    exact (apply_congr hop' (slot_apply_of_ne h hop htu)).2
  · rw [slot_apply_of_ne (h.apply hr op) hop' fun huv => hvu huv.symm, if_neg hvu]
    by_cases hvt : v = t
    · rw [if_pos hvt, hvt]
    · rw [if_neg hvt, slot_apply_of_ne h hop fun htv => hvt htv.symm]

/-- In a clean registry operations on different slots lead to the same registry in either order. -/
theorem Clean.apply_comm (h : r.Clean) (hr : r.Reachable) (hop : op.tool? = some t)
    (hop' : op'.tool? = some u) (htu : t ≠ u) :
    ((r.apply op).1.apply op').1 = ((r.apply op').1.apply op).1 := by
  have hslots : ∀ v, ((r.apply op).1.apply op').1.slot v =
      ((r.apply op').1.apply op).1.slot v := fun v => by
    rw [h.slot_apply_apply hr hop hop' htu, h.slot_apply_apply hr hop' hop htu.symm]
    by_cases hvt : v = t
    · rw [if_pos hvt, if_neg fun hvu => htu (hvt.symm.trans hvu), if_pos hvt]
    · rw [if_neg hvt, if_neg hvt]
  refine Reachable.ext_slot ?_ ?_ hslots ?_
  · exact (hr.after (.operate op')).after (.operate op)
  · exact (hr.after (.operate op)).after (.operate op')
  · calc ((r.apply op).1.apply op').1.version
        = r.version + (r.apply op).2.isOk.toNat + (r.apply op').2.isOk.toNat := by
          rw [version_apply, version_apply, h.reply_apply hop hop' htu]
      _ = r.version + (r.apply op').2.isOk.toNat + (r.apply op).2.isOk.toNat := by omega
      _ = ((r.apply op').1.apply op).1.version := by
          rw [version_apply, version_apply, h.reply_apply hop' hop htu.symm]

end Commutation

end Registry

/-! ### Callbacks that do not meddle -/

/-- A callback that runs is about to operate on the registry. -/
def State.meddles (s : State σ) : Bool :=
  match s.focus, s.levels with
  | .script (.operate ..), _ :: _ => true
  | _, _ => false

/-- While a callback runs, it takes a callback that meddles to give a slot back. -/
theorem State.Frees.meddles {s : State σ} {t : Tool} (h : s.Frees t) (hlevels : s.levels ≠ []) :
    s.meddles = true := by
  obtain ⟨op, hop, -⟩ := h
  unfold change? at hop
  split at hop
  · rename_i hfocus
    obtain ⟨level, rest, hcons⟩ := List.exists_cons_of_ne_nil hlevels
    rw [State.meddles, hfocus, hcons]
  · cases hop
  · cases hop

namespace Machine

/-- No slot is given back in a step that calls a callback. -/
theorem not_frees_of_invocation? {m : Machine σ} {s : State σ} {call : Invocation}
    (hcall : m.invocation? s = some call) (t : Tool) : ¬ s.Frees t := by
  rintro ⟨op, hop, -⟩
  obtain ⟨d, waiter, hfocus, -⟩ := picks_of_invocation? hcall
  rw [State.change?, hfocus] at hop
  cases hop

section Quiet

variable {behave : Callback → Payload → Script σ} {heap : Heap} {memory : σ} {script : Script σ}
  {t : Tool} {site : Site} {i n : ℕ}

/-- A callback is called in a slot with an owner. -/
theorem owned_of_invocation? {call : Invocation}
    (hcall : (Machine.of behave).invocation?
      ((Machine.of behave).states (.fresh heap memory script) i) = some call) :
    ((Machine.of behave).states (.fresh heap memory script) i).Owned call.tool := by
  have htarget := target?_of_invocation? (faithful_states _ _ script i) hcall
  obtain ⟨-, -, hregistered⟩ := Registry.target?_eq_some.1 htarget
  exact ((Machine.of behave).reachable_states .empty i).inUse_of_callback? hregistered

/-- A site is disabled in a slot with an owner, as long as no callback meddles. -/
theorem owned_of_disables
    (hquiet : ∀ k < i, ((Machine.of behave).states (.fresh heap memory script) k).meddles = false)
    (hdis : ((Machine.of behave).states (.fresh heap memory script) i).Disables t site) :
    ((Machine.of behave).states (.fresh heap memory script) i).Owned t := by
  obtain ⟨k, -, level, rest, hlevels, hruns⟩ := exists_asks rfl hdis
  obtain ⟨top, below, htop, rfl, -⟩ := hdis.exists_level
  obtain ⟨rfl, -⟩ := List.cons.inj (hlevels.symm.trans htop)
  have hcall := hruns.called.invocation?_eq
  -- the owner at the moment of the call keeps the slot while the callback runs
  refine owned_of_not_frees (Nat.le_of_lt hruns.lt) (owned_of_invocation? hcall)
    fun j hkj hji hfrees => ?_
  rcases Nat.lt_or_eq_of_le hkj with hlt | rfl
  · have hlevels : ((Machine.of behave).states (.fresh heap memory script) j).levels ≠ [] :=
      fun hnil => by simpa [hnil] using hruns.running j hlt (Nat.le_of_lt hji)
    have hmeddles := hfrees.meddles hlevels
    rw [hquiet j hji] at hmeddles
    cases hmeddles
  · exact not_frees_of_invocation? hcall _ hfrees

/-- **The registry is clean as long as no callback meddles.** -/
theorem clean_states
    (hquiet : ∀ k < n, ((Machine.of behave).states (.fresh heap memory script) k).meddles = false) :
    ((Machine.of behave).states (.fresh heap memory script) n).world.registry.Clean := by
  have hreachable : ((Machine.of behave).states (.fresh heap memory script)
      n).world.registry.Reachable := (Machine.of behave).reachable_states .empty n
  refine hreachable.clean_of_enabled fun t ht site hsite => ?_
  obtain ⟨i, hin, hdis, hkept⟩ := mem_disabled_fresh.1 hsite
  have howned := owned_of_disables (fun k hk => hquiet k (Nat.lt_trans hk hin)) hdis
  have hn := owned_of_unlifted (Nat.le_of_lt hin) howned hdis hkept
  rw [State.Owned, ht] at hn
  cases hn

end Quiet

/-- **Operations on different slots commute.**  As long as no callback operates on the registry, two
operations that are addressed to different slots have the same outcomes in either order, in every
state of a run from the empty registry, in the middle of dispatches as well: each of them gets the
reply that it gets alone, and the registry is the same in the end, with the owners, the callbacks,
the events armed everywhere and in single code units, the disabled sites, the union of armed events
and the version. -/
theorem operations_commute (behave : Callback → Payload → Script σ) (heap : Heap) (memory : σ)
    (script : Script σ) (n : ℕ)
    (hquiet : ∀ k < n, ((Machine.of behave).states (.fresh heap memory script) k).meddles = false)
    {op op' : Operation} {t u : Tool} (hop : op.tool? = some t) (hop' : op'.tool? = some u)
    (htu : t ≠ u) :
    let r := ((Machine.of behave).states (.fresh heap memory script) n).world.registry
    ((r.apply op').1.apply op).2 = (r.apply op).2 ∧
      ((r.apply op).1.apply op').2 = (r.apply op').2 ∧
      ((r.apply op).1.apply op').1 = ((r.apply op').1.apply op).1 := by
  intro r
  have hr : r.Reachable := (Machine.of behave).reachable_states .empty n
  have hclean : r.Clean := clean_states hquiet
  exact ⟨hclean.reply_apply hop' hop htu.symm, hclean.reply_apply hop hop' htu,
    hclean.apply_comm hr hop hop' htu⟩

/-- One tool listens for lines, in all code units and once more in one of them, until a line has
been reported. -/
def listenOnce : Script Unit :=
  operations (settle "first" ⟨0, .line⟩ ++ [.setLocal .debugger (.foreign 7) (.single .line)]) <|
    .fire lineFour fun _ => .done

/-- Of an owner that is alone, has armed a code unit and has disabled a site, nothing is left when
it gives its slot back, whether or not somebody else has taken a slot before. -/
theorem last_owner_commutes :
    let r := ((Machine.of onlyOnce).states (.fresh .empty () listenOnce) 8).world.registry
    (∀ k < 8, ((Machine.of onlyOnce).states (.fresh .empty () listenOnce) k).meddles = false) ∧
      r.disabledCount = 1 ∧ (r.apply (.free .debugger)).2.isOk = true ∧
      ((r.apply (.free .debugger)).1.apply (.claim .coverage "second")).1 =
        ((r.apply (.claim .coverage "second")).1.apply (.free .debugger)).1 := by
  have hquiet : ∀ k < 8,
      ((Machine.of onlyOnce).states (.fresh .empty () listenOnce) k).meddles = false := by
    decide +kernel
  exact ⟨hquiet, by decide +kernel, by decide +kernel,
    (operations_commute onlyOnce .empty () listenOnce 8 hquiet rfl rfl (by decide)).2.2⟩

/-- After a callback has meddled, the order matters: what it has left behind in a slot that it has
given back itself is forgotten with the last owner, unless somebody has taken a slot before. -/
example :
    let r := ((Machine.of leave).states (.fresh .empty () (operations
      (.claim .coverage "other" :: settle "first" ⟨0, .line⟩) (.fire lineFour fun _ => .done)))
        9).world.registry
    ((r.apply (.free .coverage)).1.apply (.claim .debugger "second")).1.disabledCount = 0 ∧
      ((r.apply (.claim .debugger "second")).1.apply (.free .coverage)).1.disabledCount = 1 := by
  decide +kernel

end Machine

end Tracepoint
