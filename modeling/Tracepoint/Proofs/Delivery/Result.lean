/-
**What comes of one report.**

A report is taken to the tools that are entitled to it, in the order of their slots.  A callback
that asks for no further reports changes the registry at once, and with that the version, so that
every tool behind is looked up anew although the report is still the same.  For callbacks that do
not go back into the machine this makes no difference: the site is entered in the slot of the tool
that was just called, and the slots of the tools behind are not touched.

So the whole of a report can be said in terms of the world before it.  Those who are called are the
tools that are entitled to the report, each of them once, up to the first one that faults.  What
each of them answers is what its callback comes to, in the world that the callbacks before it have
left behind; and the registry afterwards is the one before with the site disabled for those that
have asked for it.

The proof is in two parts.  The turns of the tools are a relation of their own, with one case for
each way in which a callback can answer, and what they come to is proved by induction on it; that
the machine makes such turns is one lemma about a turn, and another induction.

Main definitions:

* `Tracepoint.Registry.Entitled` — who is entitled to a report;
* `Tracepoint.Machine.replies` — what the callbacks answer in a run, in order;
* `Tracepoint.World.Answers` — **callbacks that answer one after the other**;
* `Tracepoint.World.Turns` — **the turns of the tools** that a report is taken to;
* `Tracepoint.World.Delivers` — **what comes of a report** in a world.

Main results:

* `Tracepoint.Registry.Reachable.target?_iff_entitled` — the registry chooses who is entitled;
* `Tracepoint.World.Turns.answers` — each reply is what the callback comes to;
* `Tracepoint.World.Turns.mem_calls`, `Tracepoint.World.Turns.mem_disabled`,
  `Tracepoint.World.Turns.version_eq` — who is called, and what the turns change;
* `Tracepoint.Machine.turns_lead` — the machine makes such turns;
* `Tracepoint.Machine.delivered_of_shape`, `Tracepoint.Machine.delivered_of_mismatch` — a report is
  delivered with a payload of its event, and with another one;
* `Tracepoint.Machine.report_delivers` — **the full result of a report**.
-/

import Tracepoint.Proofs.Delivery.Gate
import Tracepoint.Proofs.Delivery.Perception

set_option relaxedAutoImplicit false
set_option autoImplicit false

namespace Tracepoint

variable {σ : Type}

/-! ### Who is entitled to a report -/

namespace Registry

/-- **A tool is entitled to a report** with a callback: the callback is registered for the event,
the event or the one that it accompanies is armed everywhere or in the code unit, and neither of
them is disabled at the place. -/
structure Entitled (r : Registry) (o : Occurrence) (t : Tool) (c : Callback) : Prop where
  registered : (r.slot t).callback? o.event = some c
  armed : (r.slot t).globalEvents.has o.event.gate = true ∨
    ((r.slot t).localSet o.payload.code).has o.event.gate = true
  enabled : o.site ∉ (r.slot t).disabled
  parentEnabled : ∀ parent, o.event.parent? = some parent →
    (⟨parent, o.payload.code, o.payload.offset⟩ : Site) ∉ (r.slot t).disabled

/-- An event is delivered in a code unit if the event, or the one that it accompanies, is armed
everywhere or in the unit. -/
theorem Reachable.has_effective {r : Registry} (h : r.Reachable) (t : Tool) (code : CodeId)
    (e : Event) :
    ((r.slot t).effective code).has e = true ↔
      (r.slot t).globalEvents.has e.gate = true ∨ ((r.slot t).localSet code).has e.gate = true := by
  have hplain : ((r.slot t).globalEvents ∪ (r.slot t).localSet code).IsPlain := by
    intro f hf
    rw [EventSet.has_union, Bool.or_eq_true] at hf
    rcases hf with hf | hf
    · exact (h.tidy t).globalPlain f hf
    · exact (h.tidy t).localPlain code f hf
  rw [Slot.effective, hplain.has_delivered, EventSet.has_union, Bool.or_eq_true]

/-- **The registry chooses the tools that are entitled.** -/
theorem Reachable.target?_iff_entitled {r : Registry} (h : r.Reachable) {o : Occurrence} {t : Tool}
    {c : Callback} : r.target? t o.site = some c ↔ r.Entitled o t c := by
  have henabled : (r.slot t).isDisabled o.site = false ↔
      o.site ∉ (r.slot t).disabled ∧ ∀ parent, o.event.parent? = some parent →
        (⟨parent, o.payload.code, o.payload.offset⟩ : Site) ∉ (r.slot t).disabled := by
    rw [← Bool.not_eq_true, Slot.isDisabled, Bool.or_eq_true, Option.any_eq_true, not_or,
      Std.ExtTreeSet.contains_iff_mem]
    simp only [Std.ExtTreeSet.contains_iff_mem, not_exists, not_and]
    rfl
  rw [target?_eq_some, henabled, show o.site.code = o.payload.code from rfl,
    show o.site.event = o.event from rfl, h.has_effective]
  constructor
  · rintro ⟨harmed, ⟨hsite, hparent⟩, hc⟩
    exact ⟨hc, harmed, hsite, hparent⟩
  · rintro ⟨hc, harmed, hsite, hparent⟩
    exact ⟨harmed, ⟨hsite, hparent⟩, hc⟩

end Registry

/-! ### What callbacks answer -/

/-- The answer of a callback, with the tool whose callback it is. -/
structure Reply where
  tool : Tool
  answer : Answer

/-- The callback asks for no further reports. -/
def Reply.disables (reply : Reply) : Bool :=
  match reply.answer with
  | .ok .disable => true
  | _ => false

/-- The answer that the callback on top of the pile is about to give. -/
def State.reply? (s : State σ) : Option Reply :=
  match s.focus, s.levels with
  | .script (.answer a), level :: _ => some ⟨level.tool, a⟩
  | _, _ => none

/-- What the callbacks answer in the first `n` steps, in order. -/
def Machine.replies (m : Machine σ) (s : State σ) (n : ℕ) : List Reply :=
  m.observed State.reply? s n

/-! ### Turns -/

/-- The registry after a callback of a tool has answered the report of a site. -/
def Registry.record (r : Registry) (t : Tool) (site : Site) : Answer → Registry
  | .ok .disable => r.disable t site
  | .ok .proceed => r
  | .error _ => r

namespace World

variable (behave : Callback → Payload → Script σ)

/-- **Callbacks answer one after the other**, with these replies.  Each of them does what it does
with the payload, which leaves the registry as it is and comes to the answer, in the world that the
callbacks before it have left behind; and what it asks for is recorded before the next one is
called. -/
inductive Answers : World σ → List Invocation → List Reply → World σ → Prop
  | done (w : World σ) : Answers w [] [] w
  | next {w w' : World σ} {call : Invocation} {heap : Heap} {memory : σ} {a : Answer}
      {calls : List Invocation} {replies : List Reply}
      (comes : (behave call.callback call.occurrence.payload).outcome? w =
        some (⟨w.registry, heap, memory⟩, a))
      (rest : Answers
        ⟨w.registry.record call.tool call.occurrence.site a, heap, memory⟩ calls replies w') :
      Answers w (call :: calls) (⟨call.tool, a⟩ :: replies) w'

/-- **The turns of the tools** that a report is taken to: who is called, what they answer, the
result, and the world afterwards.  A fault is the end of it. -/
inductive Turns (o : Occurrence) :
    World σ → List (Tool × Callback) → List Invocation → List Reply → Except Exception Unit →
      World σ → Prop
  | done (w : World σ) : Turns o w [] [] [] (.ok ()) w
  | faults {w : World σ} {t : Tool} {c : Callback} (rest : List (Tool × Callback)) {heap : Heap}
      {memory : σ} {fault : Exception}
      (comes : (behave c o.payload).outcome? w =
        some (⟨w.registry, heap, memory⟩, .error fault)) :
      Turns o w ((t, c) :: rest) [⟨t, c, o⟩] [⟨t, .error fault⟩] (.error fault)
        ⟨w.registry, heap, memory⟩
  | goesOn {w w' : World σ} {t : Tool} {c : Callback} {rest : List (Tool × Callback)}
      {heap : Heap} {memory : σ} {action : Action} {calls : List Invocation}
      {replies : List Reply} {result : Except Exception Unit}
      (comes : (behave c o.payload).outcome? w = some (⟨w.registry, heap, memory⟩, .ok action))
      (turns : Turns o ⟨w.registry.record t o.site (.ok action), heap, memory⟩ rest calls replies
        result w') :
      Turns o w ((t, c) :: rest) (⟨t, c, o⟩ :: calls) (⟨t, .ok action⟩ :: replies) result w'

end World

/-! ### What a turn changes -/

namespace Registry

theorem record_cases (r : Registry) (t : Tool) (site : Site) (a : Answer) :
    a = .ok .disable ∧ r.record t site a = r.disable t site ∨
      a ≠ .ok .disable ∧ r.record t site a = r := by
  cases a with
  | error fault => exact Or.inr ⟨nofun, rfl⟩
  | ok action =>
      cases action with
      | proceed => exact Or.inr ⟨nofun, rfl⟩
      | disable => exact Or.inl ⟨rfl, rfl⟩

theorem slot_record_of_ne (r : Registry) {t u : Tool} (h : t ≠ u) (site : Site) (a : Answer) :
    (r.record t site a).slot u = r.slot u := by
  rcases r.record_cases t site a with ⟨-, hr⟩ | ⟨-, hr⟩
  · rw [hr, slot_disable, if_neg h]
  · rw [hr]

/-- Whom the registry would choose of the others is the same after a turn. -/
theorem target?_record_of_ne (r : Registry) {t u : Tool} (h : t ≠ u) (site : Site) (a : Answer) :
    (r.record t site a).target? u = r.target? u := by
  funext place
  rw [target?_eq, target?_eq, r.slot_record_of_ne h]

/-- A turn leaves everything in the slots as it is but the disabled sites. -/
theorem slot_record (r : Registry) (t u : Tool) (site : Site) (a : Answer) :
    (r.record t site a).slot u =
      { r.slot u with disabled := ((r.record t site a).slot u).disabled } := by
  rcases r.record_cases t site a with ⟨-, hr⟩ | ⟨-, hr⟩
  · rw [hr, slot_disable]
    split <;> rfl
  · rw [hr]

theorem armed_record (r : Registry) (t : Tool) (site : Site) (a : Answer) :
    (r.record t site a).armed = r.armed := by
  rcases r.record_cases t site a with ⟨-, hr⟩ | ⟨-, hr⟩
  · rw [hr]
    exact r.armed_disable t site
  · rw [hr]

theorem mem_disabled_record {r : Registry} {t u : Tool} {site place : Site} {a : Answer} :
    place ∈ ((r.record t site a).slot u).disabled ↔
      place ∈ (r.slot u).disabled ∨ place = site ∧ u = t ∧ a = .ok .disable := by
  rcases r.record_cases t site a with ⟨ha, hr⟩ | ⟨ha, hr⟩
  · rw [hr, slot_disable]
    split
    · rename_i htu
      rw [SiteSet.mem_insert, eq_comm (a := site), or_comm]
      simp [htu, ha]
    · rename_i htu
      simp [Ne.symm htu]
  · rw [hr]
    simp [ha]

/-- What is disabled and was not yet makes the version grow. -/
theorem version_record {r : Registry} {t : Tool} {site : Site} (h : site ∉ (r.slot t).disabled)
    (a : Answer) :
    (r.record t site a).version =
      r.version + (if (Reply.mk t a).disables = true then 1 else 0) := by
  rcases r.record_cases t site a with ⟨rfl, hr⟩ | ⟨ha, hr⟩
  · have hnew : (r.slot t).disabled.contains site = false := by
      rwa [← Bool.not_eq_true, Std.ExtTreeSet.contains_iff_mem]
    rw [hr]
    exact version_disable_of_not_mem hnew
  · have hnot : (Reply.mk t a).disables = false := by
      cases a with
      | error fault => rfl
      | ok action =>
          cases action with
          | proceed => rfl
          | disable => exact absurd rfl ha
    rw [hr, hnot]
    rfl

end Registry

namespace World

namespace Turns

variable {behave : Callback → Payload → Script σ} {o : Occurrence} {w w' : World σ}
  {targets : List (Tool × Callback)} {calls : List Invocation} {replies : List Reply}
  {result : Except Exception Unit}

/-- **Each reply is what the callback comes to.** -/
theorem answers (h : Turns behave o w targets calls replies result w') :
    Answers behave w calls replies w' := by
  induction h with
  | done => exact .done _
  | faults rest comes => exact .next comes (.done _)
  | goesOn comes turns ih => exact .next comes ih

/-! ### Who is called -/

/-- The tools that are called are the first ones of those that the report is taken to. -/
theorem tools_prefix (h : Turns behave o w targets calls replies result w') :
    calls.map Invocation.tool <+: targets.map Prod.fst := by
  induction h with
  | done => exact List.prefix_rfl
  | faults rest comes => exact ⟨rest.map Prod.fst, rfl⟩
  | goesOn comes turns ih => exact List.prefix_cons_inj _ |>.2 ih

/-- Every callback that is called answers, in the same order. -/
theorem tools_replies (h : Turns behave o w targets calls replies result w') :
    replies.map Reply.tool = calls.map Invocation.tool := by
  induction h with
  | done => rfl
  | faults => rfl
  | goesOn comes turns ih => exact congrArg (List.cons _) ih

theorem told (h : Turns behave o w targets calls replies result w') :
    ∀ call ∈ calls, call.occurrence = o := by
  induction h with
  | done => exact List.forall_mem_nil _
  | faults => simp
  | goesOn comes turns ih => exact List.forall_mem_cons.2 ⟨rfl, ih⟩

/-- Who answers is one of those that the report is taken to. -/
theorem tool_mem_of_reply (h : Turns behave o w targets calls replies result w') {reply : Reply}
    (hreply : reply ∈ replies) : reply.tool ∈ targets.map Prod.fst := by
  have hcalled := List.mem_map_of_mem (f := Reply.tool) hreply
  rw [h.tools_replies] at hcalled
  exact h.tools_prefix.subset hcalled

/-- **Who is called**: those that the report is taken to, but not if a tool in a lower slot
faults. -/
theorem mem_calls (h : Turns behave o w targets calls replies result w')
    (hsorted : (targets.map Prod.fst).Pairwise (· < ·)) {t : Tool} {c : Callback} :
    (⟨t, c, o⟩ : Invocation) ∈ calls ↔
      (t, c) ∈ targets ∧ ∀ u < t, ∀ fault, (⟨u, .error fault⟩ : Reply) ∉ replies := by
  induction h with
  | done => simp
  | @faults w head callback rest heap memory fault comes =>
      rw [List.map_cons, List.pairwise_cons] at hsorted
      constructor
      · intro hcall
        obtain ⟨rfl, rfl⟩ : t = head ∧ c = callback := by simpa using hcall
        refine ⟨List.mem_cons_self .., fun u hu f hf => ?_⟩
        obtain ⟨rfl, -⟩ : u = t ∧ f = fault := by simpa using hf
        exact Nat.lt_irrefl _ hu
      -- those behind are in higher slots than the one that faults
      · rintro ⟨htarget, hnone⟩
        rcases List.mem_cons.1 htarget with heq | hrest
        · cases heq
          exact List.mem_singleton_self _
        · have hlt : head < t := hsorted.1 t (List.mem_map_of_mem (f := Prod.fst) hrest)
          exact absurd (List.mem_singleton_self _) (hnone head hlt fault)
  | @goesOn w w' head callback rest heap memory action calls replies result comes turns ih =>
      rw [List.map_cons, List.pairwise_cons] at hsorted
      have hfaults : ∀ u fault, (⟨u, .error fault⟩ : Reply) ∈
          (⟨head, .ok action⟩ : Reply) :: replies ↔ (⟨u, .error fault⟩ : Reply) ∈ replies := by
        simp
      simp only [hfaults]
      constructor
      · intro hcall
        rcases List.mem_cons.1 hcall with heq | hcall
        · cases heq
          refine ⟨List.mem_cons_self .., fun u hu fault hfault => ?_⟩
          have hlt := hsorted.1 u (turns.tool_mem_of_reply hfault)
          exact Nat.lt_asymm hu hlt
        · obtain ⟨hrest, hnone⟩ := (ih hsorted.2).1 hcall
          exact ⟨List.mem_cons_of_mem _ hrest, hnone⟩
      · rintro ⟨htarget, hnone⟩
        rcases List.mem_cons.1 htarget with heq | hrest
        · cases heq
          exact List.mem_cons_self ..
        · exact List.mem_cons_of_mem _ ((ih hsorted.2).2 ⟨hrest, hnone⟩)

/-- The result is the fault of a callback, if one of them faults. -/
theorem result_eq_error_iff (h : Turns behave o w targets calls replies result w')
    (fault : Exception) :
    result = .error fault ↔ ∃ t, (⟨t, .error fault⟩ : Reply) ∈ replies := by
  induction h with
  | done => simp
  | faults => simp [eq_comm]
  | goesOn comes turns ih => simpa using ih

/-! ### What the turns change -/

/-- **What is disabled afterwards** was so before, or it is the site, for a tool that has asked for
it. -/
theorem mem_disabled (h : Turns behave o w targets calls replies result w') (t : Tool)
    (site : Site) :
    site ∈ (w'.registry.slot t).disabled ↔
      site ∈ (w.registry.slot t).disabled ∨
        site = o.site ∧ (⟨t, .ok .disable⟩ : Reply) ∈ replies := by
  induction h with
  | done => simp
  | faults => simp
  | @goesOn w w' head callback rest heap memory action calls replies result comes turns ih =>
      have hreply : (⟨t, .ok .disable⟩ : Reply) ∈ (⟨head, .ok action⟩ : Reply) :: replies ↔
          (t = head ∧ (.ok action : Answer) = .ok .disable) ∨
            (⟨t, .ok .disable⟩ : Reply) ∈ replies := by
        simp [eq_comm]
      rw [ih, Registry.mem_disabled_record, hreply, and_or_left, or_assoc]

/-- Nothing else in the slots is changed. -/
theorem slot_eq (h : Turns behave o w targets calls replies result w') (t : Tool) :
    w'.registry.slot t =
      { w.registry.slot t with disabled := (w'.registry.slot t).disabled } := by
  induction h with
  | done => rfl
  | faults => rfl
  | @goesOn w w' head callback rest heap memory action calls replies result comes turns ih =>
      rw [ih, w.registry.slot_record head t o.site (.ok action)]

theorem armed_eq (h : Turns behave o w targets calls replies result w') :
    w'.registry.armed = w.registry.armed := by
  induction h with
  | done => rfl
  | faults => rfl
  | goesOn comes turns ih => exact ih.trans (Registry.armed_record ..)

/-- **The version grows by one for each tool that asks for no further reports**, as the site was
disabled for none of them. -/
theorem version_eq (h : Turns behave o w targets calls replies result w')
    (hsorted : (targets.map Prod.fst).Pairwise (· < ·))
    (henabled : ∀ t ∈ targets.map Prod.fst, o.site ∉ (w.registry.slot t).disabled) :
    w'.registry.version = w.registry.version + replies.countP Reply.disables := by
  induction h with
  | done => rfl
  | faults => rfl
  | @goesOn w w' head callback rest heap memory action calls replies result comes turns ih =>
      rw [List.map_cons, List.pairwise_cons] at hsorted
      rw [List.map_cons, List.forall_mem_cons] at henabled
      -- the tools behind have other slots, in which nothing has changed
      have hbehind : ∀ t ∈ rest.map Prod.fst,
          o.site ∉ ((w.registry.record head o.site (.ok action)).slot t).disabled :=
        fun t ht => by
          rw [w.registry.slot_record_of_ne (Fin.ne_of_lt (hsorted.1 t ht))]
          exact henabled.2 t ht
      rw [ih hsorted.2 hbehind, Registry.version_record (t := head) henabled.1, List.countP_cons]
      omega

end Turns

/-! ### What comes of a report -/

/-- **What comes of a report** in a world: these callbacks are called, they give these replies, this
is the result, and this is the world afterwards. -/
structure Delivers (behave : Callback → Payload → Script σ) (w : World σ) (o : Occurrence)
    (calls : List Invocation) (replies : List Reply) (result : Except Exception Unit)
    (w' : World σ) : Prop where
  /-- The tools are called in the order of their slots, each of them once at most. -/
  ascending : (calls.map Invocation.tool).Pairwise (· < ·)
  /-- Each of them is told the occurrence, and no other one. -/
  told : ∀ call ∈ calls, call.occurrence = o
  /-- Each of them replies before the next one is called. -/
  answered : replies.map Reply.tool = calls.map Invocation.tool
  /-- **Each reply is what the callback comes to** with the payload, in the world that the callbacks
  before it have left behind, and the last of them leaves the world afterwards behind. -/
  answers : Answers behave w calls replies w'
  /-- **Those who are called are the tools that are entitled** to the report, up to the first one
  that faults.  A payload that is not one of the event's is told to nobody. -/
  called : ∀ t c, ⟨t, c, o⟩ ∈ calls ↔
    o.payload.shape = o.event.shape ∧ w.registry.Entitled o t c ∧
      ∀ u < t, ∀ fault, ⟨u, .error fault⟩ ∉ replies
  /-- The result is the fault of the one that faults, if there is one. -/
  fault : ∀ fault, result = .error fault ↔ ∃ t, ⟨t, .error fault⟩ ∈ replies
  /-- **The site is disabled for those who have asked for it**, and nothing else is. -/
  disabled : ∀ t site, site ∈ (w'.registry.slot t).disabled ↔
    site ∈ (w.registry.slot t).disabled ∨ site = o.site ∧ ⟨t, .ok .disable⟩ ∈ replies
  /-- The version has grown by the number of those who have asked for it. -/
  version : w'.registry.version = w.registry.version + replies.countP Reply.disables
  /-- Owners, callbacks and armed events are what they were. -/
  kept : ∀ t, w'.registry.slot t =
    { w.registry.slot t with disabled := (w'.registry.slot t).disabled }
  /-- So is the union of armed events. -/
  armed : w'.registry.armed = w.registry.armed

end World

/-- The callbacks that a report goes to take the payloads of its event. -/
theorem Registry.Reachable.shape_of_mem_targets {r : Registry} (h : r.Reachable) {o : Occurrence}
    {target : Tool × Callback} (ht : target ∈ r.targets o.site) :
    target.2.shape = o.event.shape :=
  (h.tidy target.1).shape o.event target.2 (target?_eq_some.1 (mem_targets.1 ht)).2.2

namespace World

/-- If the tools that a report goes to have had their turns, it has been delivered. -/
theorem Turns.delivers {behave : Callback → Payload → Script σ} {o : Occurrence} {w w' : World σ}
    {calls : List Invocation} {replies : List Reply} {result : Except Exception Unit}
    (hr : w.registry.Reachable) (hshape : o.payload.shape = o.event.shape)
    (h : Turns behave o w (w.registry.targets o.site) calls replies result w') :
    Delivers behave w o calls replies result w' where
  ascending := (w.registry.targets_ascending o.site).sublist h.tools_prefix.sublist
  told := h.told
  answered := h.tools_replies
  answers := h.answers
  called t c := by
    rw [h.mem_calls (w.registry.targets_ascending o.site), Registry.mem_targets,
      hr.target?_iff_entitled]
    exact ⟨fun hcall => ⟨hshape, hcall⟩, And.right⟩
  fault := h.result_eq_error_iff
  disabled := h.mem_disabled
  version := h.version_eq (w.registry.targets_ascending o.site) fun t ht => by
    obtain ⟨⟨u, c⟩, htarget, rfl⟩ := List.mem_map.1 ht
    exact (hr.target?_iff_entitled.1 (Registry.mem_targets.1 htarget)).enabled
  kept := h.slot_eq
  armed := h.armed_eq

/-- A payload that is not one of the event's is delivered to nobody. -/
theorem delivers_mismatched (behave : Callback → Payload → Script σ) (w : World σ)
    {o : Occurrence} (hshape : o.payload.shape ≠ o.event.shape) :
    Delivers behave w o [] [] (.ok ()) w where
  ascending := List.Pairwise.nil
  told := List.forall_mem_nil _
  answered := rfl
  answers := .done w
  called t c := iff_of_false List.not_mem_nil fun h => hshape h.1
  fault fault := by simp
  disabled t site := by simp
  version := rfl
  kept t := rfl
  armed := rfl

end World

/-! ### The machine makes such turns -/

/-- Where the dispatch of an occurrence begins, which a script or running code waits for. -/
def Waiter.reports (o : Occurrence) : Waiter σ → Focus σ
  | .script k => .script (.fire o k)
  | .thread t j k => .thread (.reporting t o j) k

namespace Machine

/-- **`n` steps lead from one state to another**, with these calls and these replies. -/
structure Relays (m : Machine σ) (s : State σ) (n : ℕ) (calls : List Invocation)
    (replies : List Reply) (s' : State σ) : Prop where
  calls : m.Leads m.invocation? s n calls s'
  replies : m.Leads State.reply? s n replies s'

namespace Relays

variable {m : Machine σ} {s s' s'' : State σ} {n k : ℕ} {calls calls' : List Invocation}
  {replies replies' : List Reply}

theorem trans (h : m.Relays s n calls replies s') (h' : m.Relays s' k calls' replies' s'') :
    m.Relays s (n + k) (calls ++ calls') (replies ++ replies') s'' :=
  ⟨h.calls.trans h'.calls, h.replies.trans h'.replies⟩

theorem step (m : Machine σ) (s : State σ) :
    m.Relays s 1 (m.invocation? s).toList s.reply?.toList (m.advance s) :=
  ⟨.step .., .step ..⟩

/-- A step in which nobody is called and nobody answers. -/
theorem quiet (hcall : m.invocation? s = none) (hreply : s.reply? = none) :
    m.Relays s 1 [] [] (m.advance s) :=
  ⟨.step_of_none hcall, .step_of_none hreply⟩

theorem answer (m : Machine σ) (w : World σ) (level : Level σ) (rest : List (Level σ))
    (a : Answer) :
    m.Relays ⟨w, level :: rest, .script (.answer a)⟩ 1 [] [⟨level.tool, a⟩]
      (advanceAnswer w level rest a) :=
  ⟨.step_of_none (invocation?_script ..), .step ..⟩

end Relays

/-- After an answer the dispatch goes on in the registry in which the action is recorded. -/
theorem advanceAnswer_ok (w : World σ) (level : Level σ) (rest : List (Level σ))
    (action : Action) :
    advanceAnswer w level rest (.ok action) =
      ⟨{ w with registry :=
          w.registry.record level.tool level.dispatch.occurrence.site (.ok action) }, rest,
        .dispatch level.dispatch level.waiter⟩ := by
  cases action <;> rfl

section Turns

variable (behave : Callback → Payload → Script σ) {o : Occurrence}

/-- **The turn of a tool** that the registry would choose: its callback is called, and answers what
it comes to. -/
theorem turn_leads {w : World σ} {t : Tool} {c : Callback}
    (htarget : w.registry.target? t o.site = some c) (hshape : c.shape = o.payload.shape)
    (houtside : c.StaysOutside behave) :
    ∃ heap memory a, (behave c o.payload).outcome? w = some (⟨w.registry, heap, memory⟩, a) ∧
      ∃ n, ∀ rest version levels waiter,
        (Machine.of behave).Relays ⟨w, levels, .dispatch ⟨o, (t, c) :: rest, version⟩ waiter⟩ n
          [⟨t, c, o⟩] [⟨t, a⟩]
          (advanceAnswer ⟨w.registry, heap, memory⟩ ⟨t, c, ⟨o, rest, version⟩, waiter⟩
            levels a) := by
  obtain ⟨heap, memory, a, hcomes, -⟩ := (houtside o.payload hshape).exists_outcome w
  obtain ⟨n, hanswer⟩ := outcome_leads behave hcomes
  have hcalls : State.SeesAnswersOnly (Machine.of behave).invocation? :=
    fun _ _ _ _ _ => invocation?_script ..
  have hreplies : @State.SeesAnswersOnly σ Reply State.reply? := fun _ _ _ script h => by
    cases script with
    | answer a => cases h
    | _ => rfl
  refine ⟨heap, memory, a, hcomes, 1 + n + 1, fun rest version levels waiter => ?_⟩
  -- the version may have changed, but then the registry is asked, and it would choose the tool
  obtain ⟨hcall, hadvance⟩ := called behave levels waiter
    (Dispatch.choose_of_target? (d := ⟨o, (t, c) :: rest, version⟩) htarget) hshape
  have hcalled := Relays.step (Machine.of behave)
    ⟨w, levels, .dispatch ⟨o, (t, c) :: rest, version⟩ waiter⟩
  rw [hcall, hadvance] at hcalled
  exact (hcalled.trans ⟨hanswer hcalls _ levels, hanswer hreplies _ levels⟩).trans (.answer ..)

/-- **The machine makes such turns**, whoever waits for the dispatch and whatever version it has
been opened with. -/
theorem turns_lead {w : World σ} {targets : List (Tool × Callback)}
    (hsorted : (targets.map Prod.fst).Pairwise (· < ·))
    (htargets : ∀ target ∈ targets, w.registry.target? target.1 o.site = some target.2 ∧
      target.2.shape = o.payload.shape ∧ target.2.StaysOutside behave) (version : ℕ) :
    ∃ n w' calls replies result, World.Turns behave o w targets calls replies result w' ∧
      ∀ levels waiter, (Machine.of behave).Relays
        ⟨w, levels, .dispatch ⟨o, targets, version⟩ waiter⟩ n calls replies
        (State.wake w' levels waiter result) := by
  induction targets generalizing w with
  | nil =>
      exact ⟨1, w, [], [], .ok (), .done _, fun levels waiter =>
        .quiet (invocation?_of_nil rfl) rfl⟩
  | cons head rest ih =>
      obtain ⟨t, c⟩ := head
      rw [List.map_cons, List.pairwise_cons] at hsorted
      obtain ⟨htarget, hshape, houtside⟩ := htargets _ (List.mem_cons_self ..)
      obtain ⟨heap, memory, a, hcomes, n, hturn⟩ := turn_leads behave htarget hshape houtside
      cases a with
      | error fault =>
          exact ⟨n, ⟨w.registry, heap, memory⟩, _, _, _, .faults rest hcomes,
            fun levels waiter => hturn rest version levels waiter⟩
      | ok action =>
          -- nothing has changed for the tools behind
          have hrest : ∀ target ∈ rest,
              (w.registry.record t o.site (.ok action)).target? target.1 o.site =
                some target.2 ∧
                target.2.shape = o.payload.shape ∧ target.2.StaysOutside behave :=
            fun target hmem => by
              have hlt := hsorted.1 target.1 (List.mem_map_of_mem (f := Prod.fst) hmem)
              rw [w.registry.target?_record_of_ne (Fin.ne_of_lt hlt)]
              exact htargets target (List.mem_cons_of_mem _ hmem)
          obtain ⟨k, w', calls, replies, result, hturns, hleads⟩ :=
            ih (w := ⟨w.registry.record t o.site (.ok action), heap, memory⟩) hsorted.2 hrest
          refine ⟨n + k, w', _, _, result, .goesOn hcomes hturns, fun levels waiter => ?_⟩
          have hfirst := hturn rest version levels waiter
          rw [advanceAnswer_ok] at hfirst
          exact hfirst.trans (hleads levels waiter)

/-- If no callback takes the payload, all tools are passed over. -/
theorem mismatched_leads {w : World σ} {targets : List (Tool × Callback)}
    (htargets : ∀ target ∈ targets, w.registry.target? target.1 o.site = some target.2 ∧
      target.2.shape ≠ o.payload.shape) (version : ℕ) (levels : List (Level σ))
    (waiter : Waiter σ) :
    (Machine.of behave).Relays ⟨w, levels, .dispatch ⟨o, targets, version⟩ waiter⟩
      (targets.length + 1) [] [] (State.wake w levels waiter (.ok ())) := by
  induction targets with
  | nil => exact .quiet (invocation?_of_nil rfl) rfl
  | cons head rest ih =>
      obtain ⟨t, c⟩ := head
      obtain ⟨htarget, hshape⟩ := htargets _ (List.mem_cons_self ..)
      have hother : ∀ callback,
          (Dispatch.mk o ((t, c) :: rest) version).choose w.registry t c = some callback →
            callback.shape ≠ o.payload.shape := fun callback hchoose => by
        have hchosen := Dispatch.choose_of_target? (d := ⟨o, (t, c) :: rest, version⟩) htarget
        rw [Option.some_inj.1 (hchoose.symm.trans hchosen)]
        exact hshape
      obtain ⟨hnone, hadvance⟩ := passed_over behave levels waiter hother
      have hpassed := Relays.step (Machine.of behave)
        ⟨w, levels, .dispatch ⟨o, (t, c) :: rest, version⟩ waiter⟩
      rw [hnone, hadvance] at hpassed
      have hrest := ih fun target hmem => htargets target (List.mem_cons_of_mem _ hmem)
      rw [List.length_cons, Nat.add_comm]
      exact hpassed.trans hrest

/-- A report is opened, or it goes to nobody and is over. -/
theorem report_leads {w : World σ} (hw : w.registry.Reachable) (o : Occurrence) :
    (∀ levels waiter, (Machine.of behave).Relays ⟨w, levels, waiter.reports o⟩ 1 [] []
        ⟨w, levels, .dispatch (w.registry.dispatch o) waiter⟩) ∨
      w.registry.targets o.site = [] ∧
        ∀ levels waiter, (Machine.of behave).Relays ⟨w, levels, waiter.reports o⟩ 1 [] []
          (State.wake w levels waiter (.ok ())) := by
  have hfirst : ∀ levels waiter, (Machine.of behave).Relays ⟨w, levels, waiter.reports o⟩ 1 [] []
      ((Machine.of behave).openDispatch w levels o waiter) := fun levels waiter => by
    cases waiter with
    | script k => exact .quiet (invocation?_script ..) rfl
    | thread t j k => exact .quiet (invocation?_thread ..) rfl
  cases harmed : w.registry.isArmed o.event with
  | true =>
      refine Or.inl fun levels waiter => ?_
      have hopened : (Machine.of behave).openDispatch w levels o waiter =
          ⟨w, levels, .dispatch (w.registry.dispatch o) waiter⟩ := if_pos harmed
      rw [← hopened]
      exact hfirst levels waiter
  | false =>
      refine Or.inr ⟨hw.targets_eq_nil harmed, fun levels waiter => ?_⟩
      have hpassed : (Machine.of behave).openDispatch w levels o waiter =
          State.wake w levels waiter (.ok ()) := if_neg (Bool.eq_false_iff.1 harmed)
      rw [← hpassed]
      exact hfirst levels waiter

/-- A report is delivered, in the same way at any depth and whoever waits for it. -/
def Delivered (behave : Callback → Payload → Script σ) (w : World σ) (o : Occurrence) : Prop :=
  ∃ n w' calls replies result, w.Delivers behave o calls replies result w' ∧
    ∀ levels waiter, (Machine.of behave).Relays ⟨w, levels, waiter.reports o⟩ n calls replies
      (State.wake w' levels waiter result)

/-- With a payload of the event, the tools that the report goes to have their turns. -/
theorem delivered_of_shape {w : World σ} (hw : w.registry.Reachable)
    (houtside : w.registry.HasOnly (Callback.StaysOutside behave))
    (hshape : o.payload.shape = o.event.shape) : Delivered behave w o := by
  rcases report_leads behave hw o with hopened | ⟨hnobody, hover⟩
  · have htargets : ∀ target ∈ w.registry.targets o.site,
        w.registry.target? target.1 o.site = some target.2 ∧
          target.2.shape = o.payload.shape ∧ target.2.StaysOutside behave := fun target ht => by
      have htarget := Registry.mem_targets.1 ht
      exact ⟨htarget, (hw.shape_of_mem_targets ht).trans hshape.symm,
        houtside _ _ _ (Registry.target?_eq_some.1 htarget).2.2⟩
    obtain ⟨n, w', calls, replies, result, hturns, hleads⟩ :=
      turns_lead behave (w.registry.targets_ascending o.site) htargets w.registry.version
    exact ⟨1 + n, w', calls, replies, result, hturns.delivers hw hshape,
      fun levels waiter => (hopened levels waiter).trans (hleads levels waiter)⟩
  · have hturns : World.Turns behave o w (w.registry.targets o.site) [] [] (.ok ()) w := by
      rw [hnobody]
      exact .done _
    exact ⟨1, w, [], [], .ok (), hturns.delivers hw hshape, hover⟩

/-- With another payload, all of them are passed over. -/
theorem delivered_of_mismatch {w : World σ} (hw : w.registry.Reachable)
    (hshape : o.payload.shape ≠ o.event.shape) : Delivered behave w o := by
  have hdelivers := w.delivers_mismatched behave hshape
  rcases report_leads behave hw o with hopened | ⟨-, hover⟩
  · have htargets : ∀ target ∈ w.registry.targets o.site,
        w.registry.target? target.1 o.site = some target.2 ∧
          target.2.shape ≠ o.payload.shape := fun target ht =>
      ⟨Registry.mem_targets.1 ht, fun htakes =>
        hshape (htakes.symm.trans (hw.shape_of_mem_targets ht))⟩
    have hpassed := mismatched_leads behave htargets w.registry.version
    exact ⟨_, w, [], [], .ok (), hdelivers,
      fun levels waiter => (hopened levels waiter).trans (hpassed levels waiter)⟩
  · exact ⟨1, w, [], [], .ok (), hdelivers, hover⟩

end Turns

/-- **The full result of a report.**  From any registry that can be reached, with callbacks that do
not go back into the machine, every report comes to an end, at any depth and whoever waits for it:
the tools that are entitled to it are called in the order of their slots, each of them answers what
its callback comes to, up to the first one that faults, whose fault is the result; afterwards the
site is disabled for those that have asked for it, the version has grown by their number, and the
registry is otherwise as it was.  All this depends neither on what else is under way nor on who
waits. -/
theorem report_delivers (behave : Callback → Payload → Script σ) {r : Registry}
    (hr : r.Reachable) (houtside : r.HasOnly (Callback.StaysOutside behave)) (heap : Heap)
    (memory : σ) (o : Occurrence) :
    ∃ n w' calls replies result,
      World.Delivers behave ⟨r, heap, memory⟩ o calls replies result w' ∧
      ∀ levels waiter,
        (Machine.of behave).states ⟨⟨r, heap, memory⟩, levels, waiter.reports o⟩ n =
            State.wake w' levels waiter result ∧
          (Machine.of behave).invocations ⟨⟨r, heap, memory⟩, levels, waiter.reports o⟩ n =
            calls ∧
          (Machine.of behave).replies ⟨⟨r, heap, memory⟩, levels, waiter.reports o⟩ n =
            replies := by
  have hdelivered : Delivered behave ⟨r, heap, memory⟩ o := by
    by_cases hshape : o.payload.shape = o.event.shape
    · exact delivered_of_shape behave hr houtside hshape
    · exact delivered_of_mismatch behave hr hshape
  obtain ⟨n, w', calls, replies, result, hdelivers, hleads⟩ := hdelivered
  exact ⟨n, w', calls, replies, result, hdelivers, fun levels waiter =>
    ⟨(hleads levels waiter).calls.states, (hleads levels waiter).calls.observed,
      (hleads levels waiter).replies.observed⟩⟩

/-- Four tools listen to native callees, two of them in one code unit only.  For one of the tools
calls are disabled at a place. -/
def crew : Registry :=
  (Registry.operated [.claim .debugger "first",
    .register .debugger .nativeReturn (some ⟨0, .call⟩), .setGlobal .debugger (.single .call),
    .claim .coverage "second", .register .coverage .nativeReturn (some ⟨1, .call⟩),
    .setGlobal .coverage (.single .call), .claim .profiler "third",
    .register .profiler .nativeReturn (some ⟨2, .call⟩),
    .setLocal .profiler (.foreign 7) (.single .call), .claim .optimizer "fourth",
    .register .optimizer .nativeReturn (some ⟨3, .call⟩),
    .setLocal .optimizer (.foreign 7) (.single .call)]).disable .coverage ⟨.call, .foreign 7, 4⟩

/-- The first callback is for no further reports, and the third one faults. -/
def duties : Callback → Payload → Script ℕ := fun c _ =>
  .remember (· + 1) (.answer
    (if c.id = 0 then .ok .disable else if c.id = 2 then .error ⟨.runtimeError, "no"⟩
      else .ok .proceed))

def nativeReport : Occurrence := ⟨.nativeReturn, .foreign 7 "unit" 1, 4, .call .null none⟩

/-- A native callee has returned at the place. -/
theorem crew_told :
    crew.Reachable ∧ crew.HasOnly (Callback.StaysOutside duties) ∧
      ∃ n w' calls replies result,
        World.Delivers duties ⟨crew, .empty, 0⟩ nativeReport calls replies result w' ∧
        ∀ levels waiter,
          (Machine.of duties).states ⟨⟨crew, .empty, 0⟩, levels, waiter.reports nativeReport⟩ n =
              State.wake w' levels waiter result ∧
            (Machine.of duties).invocations
                ⟨⟨crew, .empty, 0⟩, levels, waiter.reports nativeReport⟩ n = calls ∧
            (Machine.of duties).replies
                ⟨⟨crew, .empty, 0⟩, levels, waiter.reports nativeReport⟩ n = replies := by
  have hcrew : crew.Reachable :=
    (Registry.reachable_operated _).after (.disable .coverage ⟨.call, .foreign 7, 4⟩)
  have houtside : crew.HasOnly (Callback.StaysOutside duties) := fun _ _ _ _ _ _ =>
    .remember (fun _ _ => rfl) (.answer _)
  exact ⟨hcrew, houtside, report_delivers duties hcrew houtside .empty 0 nativeReport⟩

/-- The second tool is passed over, and the fourth one is behind a fault. -/
example : ((Machine.of duties).replies
      (.initial ⟨crew, .empty, 0⟩ (.fire nativeReport fun _ => .done)) 20).map
        (fun reply => (reply.tool, reply.disables)) =
    [(.debugger, true), (.profiler, false)] := by decide +kernel

end Machine

end Tracepoint
