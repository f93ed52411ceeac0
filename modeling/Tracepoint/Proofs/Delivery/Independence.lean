/-
**Tools do not get in each other's way.**

If every operation that is addressed to another tool is left out of a sequence of acts, then a tool
still gets the same replies, sees the same in its slot and is told the same occurrences in the same
order.  This is so for callbacks that do not go back into the machine, and under the condition that
no callback in a lower slot faults, as a fault keeps a report from the tools behind.

What callbacks share beside the registry is another matter: with a memory in common they can tell
each other whatever they like.  So the condition is also that there is a view of heap and memory
which is all that the callbacks of the tool depend on, and which those of the other tools leave as
it is.

The proof runs both sequences at a time.  The two worlds *mirror* each other: the slot of the tool
and the view are the same, and in the second world there is nobody else.

Main definitions:

* `Tracepoint.World.Mirrors` — **the simulation**;
* `Tracepoint.Machine.MeetAgain` — two runs come to mirrored worlds, and the tool perceives the
  same.

Main results:

* `Tracepoint.World.Mirrors.targets_eq` — to whom a report goes in the second world;
* `Tracepoint.Machine.own_turn` — the turn of the tool is the same in both worlds;
* `Tracepoint.Machine.report_mirrors`, `Tracepoint.Machine.operate_mirrors` — reports and operations
  keep the worlds mirrored;
* `Tracepoint.Machine.observers_independent` — **a tool perceives the same without the others**;
* `Tracepoint.Machine.shared_memory_interferes` — and not so if they share a memory.
-/

import Tracepoint.Proofs.Delivery.Gate
import Tracepoint.Proofs.Delivery.Perception

set_option relaxedAutoImplicit false
set_option autoImplicit false

namespace Tracepoint

variable {σ α : Type}

/-! ### Mirrored worlds -/

/-- **The simulation**: the second world has the same slot of the tool and the same view as the
first one, and in it there are no other tools. -/
structure World.Mirrors (behave : Callback → Payload → Script σ) (view : Heap → σ → α) (A : Tool)
    (w w' : World σ) : Prop where
  orderly : w.registry.Orderly behave view A
  reachable : w'.registry.Reachable
  alone : ∀ t, t ≠ A → w'.registry.slot t = .vacant
  slot : w'.registry.slot A = w.registry.slot A
  view : view w'.heap w'.memory = view w.heap w.memory

namespace World.Mirrors

variable {behave : Callback → Payload → Script σ} {view : Heap → σ → α} {A : Tool}
  {w w' w₁ : World σ}

/-- What spares the tool in the first world need not happen in the second one. -/
theorem spares (h : w.Mirrors behave view A w') (hw₁ : w₁.registry.Orderly behave view A)
    (hspares : w.Spares view A w₁) : w₁.Mirrors behave view A w' where
  orderly := hw₁
  reachable := h.reachable
  alone := h.alone
  slot := h.slot.trans hspares.slot.symm
  view := h.view.trans hspares.view.symm

theorem clean (h : w.Mirrors behave view A w') : w'.registry.Clean := by
  intro t ht
  by_cases htA : t = A
  · subst htA
    rw [h.slot] at ht ⊢
    exact h.orderly.clean t ht
  · exact h.alone t htA

/-- The same is disabled for the tool in both worlds. -/
theorem disable (h : w.Mirrors behave view A w') (hused : (w.registry.slot A).inUse = true)
    (site : Site) :
    World.Mirrors behave view A { w with registry := w.registry.disable A site }
      { w' with registry := w'.registry.disable A site } where
  orderly := h.orderly.disable hused site
  reachable := h.reachable.after (.disable A site)
  alone t ht := by
    rw [Registry.slot_disable, if_neg fun hAt => ht hAt.symm]
    exact h.alone t ht
  slot := by rw [Registry.slot_disable, Registry.slot_disable, if_pos rfl, if_pos rfl, h.slot]
  view := h.view

/-- An operation of another tool need not be done in the second world. -/
theorem operate_other (h : w.Mirrors behave view A w') {op : Operation} {t : Tool}
    (hop : op.tool? = some t) (ht : t ≠ A)
    (horderly : (w.registry.apply op).1.Orderly behave view A) :
    World.Mirrors behave view A { w with registry := (w.registry.apply op).1 } w' where
  orderly := horderly
  reachable := h.reachable
  alone := h.alone
  slot := h.slot.trans (Registry.slot_apply_of_ne h.orderly.clean hop ht).symm
  view := h.view

/-- An operation of the tool itself has the same outcome in both worlds. -/
theorem operate_own (h : w.Mirrors behave view A w') {op : Operation} (hop : op.tool? = some A)
    (horderly : (w.registry.apply op).1.Orderly behave view A) :
    World.Mirrors behave view A { w with registry := (w.registry.apply op).1 }
      { w' with registry := (w'.registry.apply op).1 } where
  orderly := horderly
  reachable := h.reachable.after (.operate op)
  alone t ht := by
    rw [Registry.slot_apply_of_ne h.clean hop fun hAt => ht hAt.symm]
    exact h.alone t ht
  slot := (Registry.apply_congr hop h.slot).2
  view := h.view

/-- What is disabled is reported again in both worlds. -/
theorem restart (h : w.Mirrors behave view A w') :
    World.Mirrors behave view A { w with registry := w.registry.restart }
      { w' with registry := w'.registry.restart } where
  orderly := show (w.registry.apply .restart).1.Orderly behave view A from
    h.orderly.apply nofun nofun
  reachable := h.reachable.after (.operate .restart)
  alone t ht := by
    rw [Registry.slot_restart, h.alone t ht]
    rfl
  slot := by rw [Registry.slot_restart, Registry.slot_restart, h.slot]
  view := h.view

/-- The same goes to the tool in both worlds. -/
theorem target?_eq (h : w.Mirrors behave view A w') (site : Site) :
    w'.registry.target? A site = w.registry.target? A site := by
  rw [Registry.target?_eq, Registry.target?_eq, h.slot]

/-- In the second world a report goes to the tool, if it does so in the first one, and to nobody
else. -/
theorem targets_eq (h : w.Mirrors behave view A w') (site : Site) :
    w'.registry.targets site =
      ((w.registry.target? A site).map fun c => (A, c)).toList := by
  have hself : ∀ target ∈ w'.registry.targets site, target.1 = A := fun target ht => by
    by_contra htA
    obtain ⟨-, -, hc⟩ := Registry.target?_eq_some.1 (Registry.mem_targets.1 ht)
    rw [h.alone _ htA, Slot.callback?_vacant] at hc
    cases hc
  cases htarget : w.registry.target? A site with
  | none =>
      refine List.eq_nil_iff_forall_not_mem.2 fun target ht => ?_
      have hmem := Registry.mem_targets.1 ht
      rw [hself target ht, h.target?_eq, htarget] at hmem
      cases hmem
  | some c =>
      obtain ⟨front, back, htargets, hfront, hback⟩ :=
        Registry.targets_split ((h.target?_eq site).trans htarget)
      rw [htargets] at hself ⊢
      obtain rfl : front = [] := List.eq_nil_iff_forall_not_mem.2 fun target ht =>
        Fin.ne_of_lt (hfront target ht) (hself target (List.mem_append_left _ ht))
      obtain rfl : back = [] := List.eq_nil_iff_forall_not_mem.2 fun target ht =>
        Fin.ne_of_gt (hback target ht) (hself target (List.mem_cons_of_mem _ ht))
      rfl

end World.Mirrors

/-! ### One turn and one report -/

namespace Machine

section Mirrors

variable {behave : Callback → Payload → Script σ} {view : Heap → σ → α} {A : Tool}
  {w w' : World σ}

/-- **The turn of the tool itself** is the same in both worlds: it is told the same, and then the
dispatches go on with the tools behind, or both are over with the same fault. -/
theorem own_turn (h : w.Mirrors behave view A w') {o : Occurrence} {c : Callback}
    (hc : w.registry.target? A o.site = some c) (rest rest' : List (Tool × Callback))
    (version version' : ℕ) (waiter waiter' : Waiter σ) :
    ∃ n xs w₁ w₁' s₁ s₁', w₁.Mirrors behave view A w₁' ∧
      (∀ t e, (w₁.registry.slot t).callback? e = (w.registry.slot t).callback? e) ∧
      (Machine.of behave).Leads ((Machine.of behave).perceived? A)
        ⟨w, [], .dispatch ⟨o, (A, c) :: rest, version⟩ waiter⟩ n xs s₁ ∧
      (Machine.of behave).Leads ((Machine.of behave).perceived? A)
        ⟨w', [], .dispatch ⟨o, (A, c) :: rest', version'⟩ waiter'⟩ n xs s₁' ∧
      ((s₁ = ⟨w₁, [], .dispatch ⟨o, rest, version⟩ waiter⟩ ∧
          s₁' = ⟨w₁', [], .dispatch ⟨o, rest', version'⟩ waiter'⟩) ∨
        ∃ fault, s₁ = State.wake w₁ [] waiter (.error fault) ∧
          s₁' = State.wake w₁' [] waiter' (.error fault)) := by
  have hchoose : (Dispatch.mk o ((A, c) :: rest) version).choose w.registry A c = some c :=
    Dispatch.choose_of_target? hc
  have hchoose' : (Dispatch.mk o ((A, c) :: rest') version').choose w'.registry A c = some c :=
    Dispatch.choose_of_target? ((h.target?_eq _).trans hc)
  obtain ⟨-, -, hregistered⟩ := Registry.target?_eq_some.1 hc
  by_cases hshape : c.shape = o.payload.shape
  · have hcalled := called_leads behave A waiter hchoose hshape
    have hcalled' := called_leads behave A waiter' hchoose' hshape
    obtain ⟨n, heap, memory, heap', memory', a, hview, hanswer, hanswer'⟩ :=
      keepsTo_leads behave A (h.orderly.own _ _ hregistered o.payload hshape)
        w w' h.view ⟨A, c, ⟨o, rest, version⟩, waiter⟩ ⟨A, c, ⟨o, rest', version'⟩, waiter'⟩ [] []
    have hback := (hcalled.trans hanswer).trans (.step_of_none rfl)
    have hback' := (hcalled'.trans hanswer').trans (.step_of_none rfl)
    have hmirrors : World.Mirrors behave view A ⟨w.registry, heap, memory⟩
        ⟨w'.registry, heap', memory'⟩ := ⟨h.orderly, h.reachable, h.alone, h.slot, hview⟩
    cases a with
    | error fault =>
        exact ⟨_, _, _, _, _, _, hmirrors, fun _ _ => rfl, hback, hback',
          Or.inr ⟨fault, rfl, rfl⟩⟩
    | ok action =>
        cases action with
        | proceed =>
            exact ⟨_, _, _, _, _, _, hmirrors, fun _ _ => rfl, hback, hback',
              Or.inl ⟨rfl, rfl⟩⟩
        | disable =>
            have howned := h.orderly.reachable.inUse_of_callback? hregistered
            exact ⟨_, _, _, _, _, _, hmirrors.disable howned o.site,
              fun t e => w.registry.callback?_disable A t o.site e, hback, hback',
              Or.inl ⟨rfl, rfl⟩⟩
  -- the callback takes another shape, in both worlds
  · have hpassed := passed_leads behave A waiter fun callback hcb => by
      rw [hchoose] at hcb
      cases hcb
      exact hshape
    have hpassed' := passed_leads behave A waiter' fun callback hcb => by
      rw [hchoose'] at hcb
      cases hcb
      exact hshape
    exact ⟨1, [], w, w', _, _, h, fun _ _ => rfl, hpassed, hpassed', Or.inl ⟨rfl, rfl⟩⟩

/-- **The two runs meet again**: they come from these states to these scripts, in worlds that mirror
each other, and the tool perceives the same on the way. -/
def MeetAgain (behave : Callback → Payload → Script σ) (view : Heap → σ → α) (A : Tool)
    (s s' : State σ) (next next' : Script σ) : Prop :=
  ∃ n n' xs w w', w.Mirrors behave view A w' ∧
    (Machine.of behave).Leads ((Machine.of behave).perceived? A) s n xs (.initial w next) ∧
    (Machine.of behave).Leads ((Machine.of behave).perceived? A) s' n' xs (.initial w' next')

namespace MeetAgain

variable {s s' : State σ} {next next' last last' : Script σ}

theorem refl (h : w.Mirrors behave view A w') (next next' : Script σ) :
    MeetAgain behave view A (.initial w next) (.initial w' next') next next' :=
  ⟨0, 0, [], w, w', h, .refl .., .refl ..⟩

/-- Runs that meet again and go on from there so that they meet again. -/
theorem trans (h : MeetAgain behave view A s s' next next')
    (hfaults : (Machine.of behave).NoFaultBelow A s)
    (hrest : ∀ w w' : World σ, w.Mirrors behave view A w' →
      (Machine.of behave).NoFaultBelow A (.initial w next) →
      MeetAgain behave view A (.initial w next) (.initial w' next') last last') :
    MeetAgain behave view A s s' last last' := by
  obtain ⟨n, n', xs, w, w', hmirrors, hleads, hleads'⟩ := h
  obtain ⟨m, m', ys, w₁, w₁', hmirrors₁, hrun, hrun'⟩ :=
    hrest w w' hmirrors (hfaults.of_leads hleads)
  exact ⟨n + m, n' + m', xs ++ ys, w₁, w₁', hmirrors₁, hleads.trans hrun, hleads'.trans hrun'⟩

/-- A step of both runs at which the tool perceives the same. -/
theorem of_step (hsame : (Machine.of behave).perceived? A s' = (Machine.of behave).perceived? A s)
    (h : MeetAgain behave view A ((Machine.of behave).advance s) ((Machine.of behave).advance s')
      next next') : MeetAgain behave view A s s' next next' := by
  obtain ⟨n, n', xs, w, w', hmirrors, hleads, hleads'⟩ := h
  have hstep := Leads.step (Machine.of behave) ((Machine.of behave).perceived? A) s
  have hstep' := Leads.step (Machine.of behave) ((Machine.of behave).perceived? A) s'
  rw [hsame] at hstep'
  exact ⟨1 + n, 1 + n', _, w, w', hmirrors, hstep.trans hleads, hstep'.trans hleads'⟩

/-- A step of the first run alone, at which the tool perceives nothing. -/
theorem of_step_first (hnone : (Machine.of behave).perceived? A s = none)
    (h : MeetAgain behave view A ((Machine.of behave).advance s) s' next next') :
    MeetAgain behave view A s s' next next' := by
  obtain ⟨n, n', xs, w, w', hmirrors, hleads, hleads'⟩ := h
  exact ⟨1 + n, n', xs, w, w', hmirrors, (Leads.step_of_none hnone).trans hleads, hleads'⟩

end MeetAgain

/-- A report that does not go to the tool is for other tools in the first world, and for nobody in
the second one. -/
theorem report_elsewhere (h : w.Mirrors behave view A w') {o : Occurrence}
    (htarget : w.registry.target? A o.site = none) (next next' : Script σ) :
    MeetAgain behave view A ((Machine.of behave).openDispatch w [] o (.script fun _ => next))
      ((Machine.of behave).openDispatch w' [] o (.script fun _ => next')) next next' := by
  have hothers : ∀ target ∈ w.registry.targets o.site, target.1 ≠ A ∧
      (w.registry.slot target.1).callback? o.event = some target.2 := fun target ht => by
    have hmem := Registry.mem_targets.1 ht
    refine ⟨fun hA => ?_, (Registry.target?_eq_some.1 hmem).2.2⟩
    rw [hA, htarget] at hmem
    cases hmem
  have hnobody : w'.registry.targets o.site = [] := by
    rw [h.targets_eq, htarget]
    rfl
  have hsecond : ∃ n', (Machine.of behave).Leads ((Machine.of behave).perceived? A)
      ((Machine.of behave).openDispatch w' [] o (.script fun _ => next')) n' []
      ⟨w', [], .script next'⟩ := by
    rcases openDispatch_cases behave h.reachable [] o (.script fun _ => next') with
      hopen | ⟨-, hclosed⟩
    · rw [hopen, Registry.dispatch, hnobody]
      exact ⟨1, .step_of_none rfl⟩
    · rw [hclosed]
      exact ⟨0, .refl ..⟩
  obtain ⟨n', hleads'⟩ := hsecond
  rcases openDispatch_cases behave h.orderly.reachable [] o (.script fun _ => next) with
    hopen | ⟨-, hclosed⟩
  · obtain ⟨n, w₁, hw₁, hspares, hleads⟩ :=
      others_finish h.orderly hothers w.registry.version next
    rw [hopen]
    exact ⟨n, n', [], w₁, w', h.spares hw₁ hspares, hleads, hleads'⟩
  · rw [hclosed]
    exact ⟨0, n', [], w, w', h, .refl .., hleads'⟩

/-- A report that goes to the tool goes past the tools in lower slots first, and on to those in
higher slots afterwards; in the second world it goes to the tool alone. -/
theorem report_home (h : w.Mirrors behave view A w') {o : Occurrence} {c : Callback}
    (htarget : w.registry.target? A o.site = some c) (next next' : Script σ)
    (hfaults : (Machine.of behave).NoFaultBelow A
      ((Machine.of behave).openDispatch w [] o (.script fun _ => next))) :
    MeetAgain behave view A ((Machine.of behave).openDispatch w [] o (.script fun _ => next))
      ((Machine.of behave).openDispatch w' [] o (.script fun _ => next')) next next' := by
  obtain ⟨front, back, htargets, hfront, hback⟩ := Registry.targets_split htarget
  have htarget' := (h.target?_eq o.site).trans htarget
  have htargets' : w'.registry.targets o.site = [(A, c)] := by
    rw [h.targets_eq, htarget]
    rfl
  have hregistered : ∀ target ∈ front ++ (A, c) :: back,
      (w.registry.slot target.1).callback? o.event = some target.2 := fun target ht => by
    rw [← htargets] at ht
    exact (Registry.target?_eq_some.1 (Registry.mem_targets.1 ht)).2.2
  rw [openDispatch_of_target? behave h.orderly.reachable htarget, Registry.dispatch, htargets]
    at hfaults ⊢
  rw [openDispatch_of_target? behave h.reachable htarget', Registry.dispatch, htargets']
  -- the tools in lower slots do not fault, so that the dispatch gets to the tool
  obtain ⟨n, w₁, hw₁, hspares, hturns⟩ := other_turns h.orderly
    (fun target ht => ⟨Fin.ne_of_lt (hfront target ht),
      hregistered target (List.mem_append_left _ ht)⟩)
    ((A, c) :: back) w.registry.version (.script fun _ => next)
  have hon := hturns.resolve_right fun ⟨_, _, k, target, hmem, hk⟩ =>
    absurd (hfront target hmem) (Fin.not_lt.2 (hfaults k _ hk))
  have hmirrors := h.spares hw₁ hspares
  have htarget₁ : w₁.registry.target? A o.site = some c := by
    rw [← hmirrors.target?_eq]
    exact htarget'
  obtain ⟨m, xs, w₂, w₂', s₂, s₂', hmirrors₂, hcallbacks, hturn, hturn', hends⟩ :=
    own_turn hmirrors htarget₁ back [] w.registry.version w'.registry.version
      (.script fun _ => next) (.script fun _ => next')
  have hrun := hon.trans hturn
  rcases hends with ⟨rfl, rfl⟩ | ⟨fault, rfl, rfl⟩
  · have hback₂ : ∀ target ∈ back, target.1 ≠ A ∧
        (w₂.registry.slot target.1).callback? o.event = some target.2 := fun target ht => by
      rw [hcallbacks, hspares.callbacks]
      exact ⟨Fin.ne_of_gt (hback target ht),
        hregistered target (List.mem_append_right _ (List.mem_cons_of_mem _ ht))⟩
    obtain ⟨d, w₃, hw₃, hspares₃, hfinish⟩ :=
      others_finish hmirrors₂.orderly hback₂ w.registry.version next
    have hall := hrun.trans hfinish
    have hall' := hturn'.trans (.step_of_none rfl)
    rw [List.nil_append, List.append_nil] at hall
    rw [List.append_nil] at hall'
    exact ⟨_, _, xs, w₃, w₂', hmirrors₂.spares hw₃ hspares₃, hall, hall'⟩
  · exact ⟨_, _, xs, w₂, w₂', hmirrors₂, hrun, hturn'⟩

/-- **A report keeps the worlds mirrored**, and the tool perceives the same of it, if no callback in
a lower slot faults. -/
theorem report_mirrors (h : w.Mirrors behave view A w') (o : Occurrence) (next next' : Script σ)
    (hfaults : (Machine.of behave).NoFaultBelow A
      ((Machine.of behave).openDispatch w [] o (.script fun _ => next))) :
    MeetAgain behave view A ((Machine.of behave).openDispatch w [] o (.script fun _ => next))
      ((Machine.of behave).openDispatch w' [] o (.script fun _ => next')) next next' := by
  cases htarget : w.registry.target? A o.site with
  | none => exact report_elsewhere h htarget next next'
  | some c => exact report_home h htarget next next' hfaults

end Mirrors

/-! ### Sequences of acts -/

section Acts

variable {behave : Callback → Payload → Script σ} {view : Heap → σ → α} {A : Tool}

/-- An operation keeps the worlds mirrored: one of the tool itself, to which it gets the same reply,
one of another tool, which is left out in the second world, and one of nobody in particular. -/
theorem operate_mirrors {w w' : World σ} (h : w.Mirrors behave view A w') {op : Operation}
    (horderly : (w.registry.apply op).1.Orderly behave view A) (acts acts' : List Act) :
    MeetAgain behave view A (.initial w (Act.script (.operate op :: acts)))
      (.initial w' (Act.script ([Act.operate op].filter (Act.concerns A) ++ acts')))
      (Act.script acts) (Act.script acts') := by
  cases hop : op.tool? with
  | none =>
      cases op with
      | restart => exact .of_step rfl (.refl h.restart ..)
      | _ => cases hop
  | some t =>
      by_cases htA : t = A
      · subst htA
        have hconcerns : Act.concerns t (.operate op) = true := by simp [Act.concerns, hop]
        rw [List.filter_cons_of_pos hconcerns]
        refine .of_step ?_ (.refl (h.operate_own hop horderly) ..)
        simp only [perceived?, State.initial, Act.script, List.filter_nil, List.cons_append,
          (Registry.apply_congr hop h.slot).1]
      · have hconcerns : ¬ Act.concerns A (.operate op) = true := by simp [Act.concerns, hop, htA]
        rw [List.filter_cons_of_neg hconcerns]
        refine .of_step_first ?_ (.refl (h.operate_other hop htA horderly) ..)
        exact if_neg fun hown => htA (Option.some.inj (hop.symm.trans hown))

/-- **A sequence of acts keeps the worlds mirrored** if all that is addressed to other tools is left
out in the second one, and the tool perceives the same. -/
theorem acts_mirror {acts : List Act}
    (hown : ∀ e c, .operate (.register A e (some c)) ∈ acts → c.KeepsTo behave view)
    (hothers : ∀ t, t ≠ A → ∀ e c, .operate (.register t e (some c)) ∈ acts →
      c.KeepsOff behave view)
    {w w' : World σ} (h : w.Mirrors behave view A w')
    (hfaults : (Machine.of behave).NoFaultBelow A (.initial w (Act.script acts))) :
    MeetAgain behave view A (.initial w (Act.script acts))
      (.initial w' (Act.script (acts.filter (Act.concerns A)))) .done .done := by
  induction acts generalizing w w' with
  | nil => exact .refl h ..
  | cons act acts ih =>
      -- it is enough that the runs meet again behind the first act
      suffices hfirst : MeetAgain behave view A (.initial w (Act.script (act :: acts)))
          (.initial w' (Act.script ([act].filter (Act.concerns A) ++
            acts.filter (Act.concerns A))))
          (Act.script acts) (Act.script (acts.filter (Act.concerns A))) by
        rw [← List.filter_append, List.singleton_append] at hfirst
        exact hfirst.trans hfaults fun w w' hmirrors hfaults => ih
          (fun e c hc => hown e c (List.mem_cons_of_mem _ hc))
          (fun t ht e c hc => hothers t ht e c (List.mem_cons_of_mem _ hc)) hmirrors hfaults
      cases act with
      | look => exact .of_step (congrArg (some ∘ Perception.sight) h.slot) (.refl h ..)
      | report o =>
          have hfires : (Machine.of behave).Leads ((Machine.of behave).perceived? A)
              (.initial w (Act.script (.report o :: acts))) 1 []
              ((Machine.of behave).openDispatch w [] o (.script fun _ => Act.script acts)) :=
            .step_of_none rfl
          exact .of_step rfl (report_mirrors h o _ _ (hfaults.of_leads hfires))
      | operate op =>
          have horderly : (w.registry.apply op).1.Orderly behave view A := h.orderly.apply
            (fun e c hc => hown e c (by rw [hc]; exact List.mem_cons_self ..))
            (fun t ht e c hc => hothers t ht e c (by rw [hc]; exact List.mem_cons_self ..))
          exact operate_mirrors h horderly acts (acts.filter (Act.concerns A))

end Acts

/-- **A tool perceives the same without the others.**  The callbacks do not go back into the
machine; those of the tool depend on a view of heap and memory only, and those of the other tools
leave this view as it is; and no callback in a lower slot faults.  Then, on a new registry, the
sequence of acts and what remains of it without the operations that are addressed to other tools
both come to their ends, and in both the tool gets the same replies to its own operations, sees the
same in its slot whenever it looks, and its callbacks are told the same, all in the same order. -/
theorem observers_independent (behave : Callback → Payload → Script σ) (view : Heap → σ → α)
    (A : Tool) (heap : Heap) (memory : σ) {acts : List Act}
    (hown : ∀ e c, .operate (.register A e (some c)) ∈ acts → c.KeepsTo behave view)
    (hothers : ∀ t, t ≠ A → ∀ e c, .operate (.register t e (some c)) ∈ acts →
      c.KeepsOff behave view)
    (hfaults : (Machine.of behave).NoFaultBelow A
      (.initial ⟨.empty, heap, memory⟩ (Act.script acts))) :
    let all : State σ := .initial ⟨.empty, heap, memory⟩ (Act.script acts)
    let alone : State σ :=
      .initial ⟨.empty, heap, memory⟩ (Act.script (acts.filter (Act.concerns A)))
    (∃ n, ((Machine.of behave).states all n).isOver = true) ∧
      (∃ n, ((Machine.of behave).states alone n).isOver = true) ∧
      ∀ n n', ((Machine.of behave).states all n).isOver = true →
        ((Machine.of behave).states alone n').isOver = true →
        (Machine.of behave).perceptions A all n = (Machine.of behave).perceptions A alone n' := by
  intro all alone
  have hmirrors : World.Mirrors behave view A ⟨.empty, heap, memory⟩ ⟨.empty, heap, memory⟩ :=
    ⟨Registry.orderly_empty, .empty, fun t _ => Registry.slot_empty t, rfl, rfl⟩
  obtain ⟨n, n', xs, w, w', -, hleads, hleads'⟩ := acts_mirror hown hothers hmirrors hfaults
  have hover : ((Machine.of behave).states all n).isOver = true := by
    rw [hleads.states]
    rfl
  have hover' : ((Machine.of behave).states alone n').isOver = true := by
    rw [hleads'.states]
    rfl
  refine ⟨⟨n, hover⟩, ⟨n', hover'⟩, fun k k' hk hk' => ?_⟩
  have hlook := fun s : State σ => (Machine.of behave).perceived?_of_isOver A (s := s)
  calc (Machine.of behave).perceptions A all k
      = (Machine.of behave).perceptions A all n := observed_unique hlook hk hover
    _ = xs := hleads.observed
    _ = (Machine.of behave).perceptions A alone n' := hleads'.observed.symm
    _ = (Machine.of behave).perceptions A alone k' := observed_unique hlook hover' hk'

/-- Two tools listen for lines, of which three are reported, and the one in the higher slot looks at
what is kept for it. -/
def contest (lower higher : Callback) : List Act :=
  [.operate (.claim .debugger "lower"), .operate (.register .debugger .line (some lower)),
    .operate (.setGlobal .debugger (.single .line)), .operate (.claim .coverage "higher"),
    .operate (.register .coverage .line (some higher)),
    .operate (.setGlobal .coverage (.single .line)),
    .report ⟨.line, .foreign 7 "unit" 1, 4, .line 1⟩,
    .report ⟨.line, .foreign 7 "unit" 1, 4, .line 1⟩, .look,
    .report ⟨.line, .foreign 7 "unit" 1, 4, .line 1⟩]

/-- Two callbacks count their calls, each for itself.  The first one is for no further reports at
once, and the second one from its second call on. -/
def separately : Callback → Payload → Script (ℕ × ℕ) := fun c _ =>
  if c.id = 0 then .remember (fun m => (m.1 + 1, m.2)) (.answer (.ok .disable))
  else .inspect fun w => .remember (fun m => (m.1, m.2 + 1))
    (.answer (.ok (if w.memory.2 = 0 then .proceed else .disable)))

/-- The tool in the higher slot is told the first two lines, and sees that it has disabled them,
with the other tool as without it. -/
theorem contest_independent :
    ((Machine.of separately).states (.initial ⟨.empty, .empty, (0, 0)⟩
        (Act.script (contest ⟨0, .line⟩ ⟨1, .line⟩))) 60).isOver = true ∧
      (Machine.of separately).perceptions .coverage (.initial ⟨.empty, .empty, (0, 0)⟩
          (Act.script (contest ⟨0, .line⟩ ⟨1, .line⟩))) 60 =
        (Machine.of separately).perceptions .coverage (.initial ⟨.empty, .empty, (0, 0)⟩
          (Act.script ((contest ⟨0, .line⟩ ⟨1, .line⟩).filter (Act.concerns .coverage)))) 60 := by
  have hover : ((Machine.of separately).states (.initial ⟨.empty, .empty, (0, 0)⟩
      (Act.script (contest ⟨0, .line⟩ ⟨1, .line⟩))) 60).isOver = true := by decide +kernel
  have hown : ∀ e c, .operate (.register .coverage e (some c)) ∈ contest ⟨0, .line⟩ ⟨1, .line⟩ →
      c.KeepsTo separately fun _ m => m.2 := by
    intro e c hc p _
    obtain ⟨-, rfl⟩ : e = .line ∧ c = ⟨1, .line⟩ := by
      simpa [contest, Tool.debugger, Tool.coverage] using hc
    refine .inspect (fun w w' hview => ?_) fun w => .remember (fun _ _ _ _ hview => ?_) (.answer _)
    · have hcount : w'.memory.2 = w.memory.2 := hview
      simp only [hcount]
    · exact congrArg (· + 1) hview
  have hothers : ∀ t, t ≠ .coverage → ∀ e c,
      .operate (.register t e (some c)) ∈ contest ⟨0, .line⟩ ⟨1, .line⟩ →
        c.KeepsOff separately fun _ m => m.2 := by
    intro t ht e c hc p _
    obtain ⟨-, -, rfl⟩ : t = .debugger ∧ e = .line ∧ c = ⟨0, .line⟩ := by
      simpa [contest, ht] using hc
    exact .remember (fun _ _ => rfl) (.answer _)
  have hfaults : (Machine.of separately).NoFaultBelow .coverage
      (.initial ⟨.empty, .empty, (0, 0)⟩ (Act.script (contest ⟨0, .line⟩ ⟨1, .line⟩))) :=
    .of_isOver hover (by decide +kernel)
  obtain ⟨-, -, hsame⟩ :=
    observers_independent separately (fun _ m => m.2) .coverage .empty (0, 0) hown hothers hfaults
  exact ⟨hover, hsame 60 60 hover (by decide +kernel)⟩

/-- The callback is for no further reports when it is called first, whoever has registered it. -/
def together : Callback → Payload → Script ℕ := fun _ _ =>
  .inspect fun w => .remember (· + 1)
    (.answer (.ok (if w.memory = 0 then .disable else .proceed)))

/-- **Callbacks with a memory in common interfere**, even if they do not go back into the machine:
if two tools register the same one, then the tool in the lower slot gets the first call, so that the
other one is told what it would not be told without it. -/
theorem shared_memory_interferes :
    ¬ ∀ (behave : Callback → Payload → Script ℕ) (A : Tool) (heap : Heap) (memory : ℕ)
        (acts : List Act),
      (∀ t e c, .operate (.register t e (some c)) ∈ acts → c.StaysOutside behave) →
      (Machine.of behave).NoFaultBelow A
        (.initial ⟨.empty, heap, memory⟩ (Act.script acts)) →
      ∀ n n',
        ((Machine.of behave).states (.initial ⟨.empty, heap, memory⟩ (Act.script acts)) n).isOver =
          true →
        ((Machine.of behave).states (.initial ⟨.empty, heap, memory⟩
          (Act.script (acts.filter (Act.concerns A)))) n').isOver = true →
        (Machine.of behave).perceptions A
            (.initial ⟨.empty, heap, memory⟩ (Act.script acts)) n =
          (Machine.of behave).perceptions A (.initial ⟨.empty, heap, memory⟩
            (Act.script (acts.filter (Act.concerns A)))) n' := by
  intro hall
  have hover : ((Machine.of together).states (.initial ⟨.empty, .empty, 0⟩
      (Act.script (contest ⟨0, .line⟩ ⟨0, .line⟩))) 60).isOver = true := by decide +kernel
  have houtside : ∀ t e c, .operate (.register t e (some c)) ∈ contest ⟨0, .line⟩ ⟨0, .line⟩ →
      c.StaysOutside together := fun _ _ _ _ _ _ =>
    .inspect fun _ => .remember (fun _ _ => rfl) (.answer _)
  have hsame := hall together .coverage .empty 0 (contest ⟨0, .line⟩ ⟨0, .line⟩) houtside
    (.of_isOver hover (by decide +kernel)) 60 60 hover (by decide +kernel)
  have hlength := congrArg List.length hsame
  revert hlength
  decide +kernel

end Machine

end Tracepoint
