/-
**What a tool gets to know, and what others do in their turns.**

A host makes a sequence of acts: it operates on the registry, reports occurrences, and looks at what
is kept for a tool.  The tool gets to know the replies to its own operations, what it sees in its
slot, and what its callbacks are told.

Callbacks here do not go back into the machine, but they may look at everything, have a memory and
change lists.  A *view* is a part of heap and memory.  If the callbacks of other tools keep off the
view of the tool, then whatever they do when their turns come in a dispatch, the slot of the tool
and its view are left as they are; it is only that a fault keeps the report from the tools behind.

Main definitions:

* `Tracepoint.Script.outcome?` — **what a script comes to** that stays outside the machine;
* `Tracepoint.Script.KeepsOff`, `Tracepoint.Script.KeepsTo` — scripts that leave a view as it is,
  and scripts that depend on nothing else;
* `Tracepoint.Act`, `Tracepoint.Act.concerns` — **the acts of a host**, and those that concern a
  tool;
* `Tracepoint.Machine.perceptions` — **what a tool gets to know** in the course of a run;
* `Tracepoint.Registry.Orderly` — all callbacks keep to what they have to;
* `Tracepoint.World.Spares` — what has happened was no concern of the tool.

Main results:

* `Tracepoint.Machine.outcome_leads` — **the machine takes a script to its outcome**;
* `Tracepoint.Machine.keepsOff_leads`, `Tracepoint.Machine.keepsTo_leads` — the same for scripts
  that keep to a view;
* `Tracepoint.Machine.other_turn`, `Tracepoint.Machine.other_turns` — **the turns of other tools**
  spare the tool.
-/

import Tracepoint.Proofs.Machine.Observation
import Tracepoint.Proofs.Registry.Eligible
import Tracepoint.Proofs.Registry.Locality

set_option relaxedAutoImplicit false
set_option autoImplicit false

namespace Tracepoint

variable {σ α : Type}

/-! ### Callbacks that stay outside -/

/-- **What a script comes to that stays outside the machine**: the world that it leaves behind, and
its answer.  A script that goes back into the machine comes to nothing by itself. -/
def Script.outcome? : Script σ → World σ → Option (World σ × Answer)
  | .answer a, w => some (w, a)
  | .inspect k, w => (k w).outcome? w
  | .remember f next, w => next.outcome? { w with memory := f w.memory }
  | .allocate lists next, w => next.outcome? { w with heap := w.heap.addLists lists }
  | .setItems address items next, w =>
      next.outcome? { w with heap := w.heap.setItems address items }
  | .operate .., _ => none
  | .fire .., _ => none
  | .call .., _ => none

/-- A script that does not go back into the machine and leaves what is seen of heap and memory as
it is. -/
inductive Script.KeepsOff (view : Heap → σ → α) : Script σ → Prop
  | answer (a : Answer) : KeepsOff view (.answer a)
  | inspect {k : World σ → Script σ} (next : ∀ w, KeepsOff view (k w)) :
      KeepsOff view (.inspect k)
  | remember {f : σ → σ} {script : Script σ} (same : ∀ h m, view h (f m) = view h m)
      (next : KeepsOff view script) : KeepsOff view (.remember f script)
  | allocate {lists : Array (Array Value)} {script : Script σ}
      (same : ∀ h m, view (h.addLists lists) m = view h m) (next : KeepsOff view script) :
      KeepsOff view (.allocate lists script)
  | setItems {address : Nat} {items : Array Value} {script : Script σ}
      (same : ∀ h m, view (h.setItems address items) m = view h m)
      (next : KeepsOff view script) : KeepsOff view (.setItems address items script)

/-- A script that does not go back into the machine and depends on what is seen of heap and memory
only. -/
inductive Script.KeepsTo (view : Heap → σ → α) : Script σ → Prop
  | answer (a : Answer) : KeepsTo view (.answer a)
  | inspect {k : World σ → Script σ}
      (same : ∀ w w', view w'.heap w'.memory = view w.heap w.memory → k w' = k w)
      (next : ∀ w, KeepsTo view (k w)) : KeepsTo view (.inspect k)
  | remember {f : σ → σ} {script : Script σ}
      (same : ∀ h m h' m', view h' m' = view h m → view h' (f m') = view h (f m))
      (next : KeepsTo view script) : KeepsTo view (.remember f script)
  | allocate {lists : Array (Array Value)} {script : Script σ}
      (same : ∀ h m h' m', view h' m' = view h m →
        view (h'.addLists lists) m' = view (h.addLists lists) m)
      (next : KeepsTo view script) : KeepsTo view (.allocate lists script)
  | setItems {address : Nat} {items : Array Value} {script : Script σ}
      (same : ∀ h m h' m', view h' m' = view h m →
        view (h'.setItems address items) m' = view (h.setItems address items) m)
      (next : KeepsTo view script) : KeepsTo view (.setItems address items script)

/-- A script that keeps off a view comes to an answer, and leaves the view and the registry as they
were. -/
theorem Script.KeepsOff.exists_outcome {view : Heap → σ → α} {script : Script σ}
    (h : script.KeepsOff view) (w : World σ) :
    ∃ heap memory a, script.outcome? w = some (⟨w.registry, heap, memory⟩, a) ∧
      view heap memory = view w.heap w.memory := by
  induction h generalizing w with
  | answer a => exact ⟨w.heap, w.memory, a, rfl, rfl⟩
  | inspect next ih => exact ih w w
  | @remember f script same next ih =>
      obtain ⟨heap, memory, a, hcomes, hview⟩ := ih { w with memory := f w.memory }
      exact ⟨heap, memory, a, hcomes, hview.trans (same ..)⟩
  | @allocate lists script same next ih =>
      obtain ⟨heap, memory, a, hcomes, hview⟩ := ih { w with heap := w.heap.addLists lists }
      exact ⟨heap, memory, a, hcomes, hview.trans (same ..)⟩
  | @setItems address items script same next ih =>
      obtain ⟨heap, memory, a, hcomes, hview⟩ :=
        ih { w with heap := w.heap.setItems address items }
      exact ⟨heap, memory, a, hcomes, hview.trans (same ..)⟩

namespace Callback

/-- A callback that leaves a view as it is, with all payloads of its shape. -/
def KeepsOff (behave : Callback → Payload → Script σ) (view : Heap → σ → α) (c : Callback) :
    Prop :=
  ∀ p : Payload, c.shape = p.shape → (behave c p).KeepsOff view

/-- A callback that depends on a view only, with all payloads of its shape. -/
def KeepsTo (behave : Callback → Payload → Script σ) (view : Heap → σ → α) (c : Callback) :
    Prop :=
  ∀ p : Payload, c.shape = p.shape → (behave c p).KeepsTo view

/-- A callback that does not go back into the machine: it keeps off a view in which there is
nothing to be seen. -/
def StaysOutside (behave : Callback → Payload → Script σ) (c : Callback) : Prop :=
  c.KeepsOff behave fun _ _ => ()

end Callback

/-! ### Acts and what a tool perceives of them -/

/-- What a host does. -/
inductive Act where
  | operate (op : Operation)
  | report (o : Occurrence)
  /-- It looks at what is kept for the tool in question. -/
  | look

namespace Act

/-- A sequence of acts as a script. -/
def script : List Act → Script σ
  | [] => .done
  | .operate op :: acts => .operate op fun _ => script acts
  | .report o :: acts => .fire o fun _ => script acts
  | .look :: acts => .inspect fun _ => script acts

/-- Everything but the operations that are addressed to other tools. -/
def concerns (A : Tool) : Act → Bool
  | .operate op => op.tool?.all fun t => t = A
  | .report _ => true
  | .look => true

end Act

/-- What a tool gets to know. -/
inductive Perception where
  /-- An operation of its own has this outcome. -/
  | reply (op : Operation) (result : Except MonitorError (Option Callback))
  /-- This is kept for it. -/
  | sight (slot : Slot)
  /-- Its callback is told this. -/
  | told (callback : Callback) (o : Occurrence)

/-- The tool whose callback is about to answer with a fault. -/
def State.fault? (s : State σ) : Option Tool :=
  match s.focus, s.levels with
  | .script (.answer (.error _)), level :: _ => some level.tool
  | _, _ => none

def Script.isAnswer : Script σ → Bool
  | .answer _ => true
  | _ => false

/-- Of a callback that runs nothing is to be seen before it answers. -/
def State.SeesAnswersOnly {β : Type} (look : State σ → Option β) : Prop :=
  ∀ w level rest script, script.isAnswer = false → look ⟨w, level :: rest, .script script⟩ = none

namespace Machine

/-- **What a tool gets to know** in a state, of its own operations and looks and through its
callbacks. -/
def perceived? (m : Machine σ) (A : Tool) (s : State σ) : Option Perception :=
  match s.focus, s.levels with
  | .script (.operate op _), [] =>
      if op.tool? = some A then some (.reply op (s.world.registry.apply op).2) else none
  | .script (.inspect _), [] => some (.sight (s.world.registry.slot A))
  | .dispatch _ _, _ =>
      ((m.invocation? s).filter fun call => call.tool = A).map fun call =>
        .told call.callback call.occurrence
  | _, _ => none

/-- What a tool gets to know in the first `n` steps, in order. -/
def perceptions (m : Machine σ) (A : Tool) (s : State σ) (n : ℕ) : List Perception :=
  m.observed (m.perceived? A) s n

/-- No callback in a slot below that of the tool faults. -/
def NoFaultBelow (m : Machine σ) (A : Tool) (s : State σ) : Prop :=
  ∀ n t, (m.states s n).fault? = some t → A ≤ t

theorem NoFaultBelow.states {m : Machine σ} {A : Tool} {s : State σ} (h : m.NoFaultBelow A s)
    (n : ℕ) : m.NoFaultBelow A (m.states s n) := by
  intro k t hk
  rw [← states_add] at hk
  exact h _ t hk

theorem NoFaultBelow.of_leads {m : Machine σ} {A : Tool} {s s' : State σ} {n : ℕ}
    {xs : List Perception} (h : m.NoFaultBelow A s) (hleads : m.Leads (m.perceived? A) s n xs s') :
    m.NoFaultBelow A s' := by
  rw [← hleads.states]
  exact h.states n

/-- Whether callbacks fault is settled when the run is over. -/
theorem NoFaultBelow.of_isOver {m : Machine σ} {A : Tool} {s : State σ} {k : ℕ}
    (hover : (m.states s k).isOver = true)
    (h : ∀ n ≤ k, (m.states s n).fault?.all (fun t => A ≤ t) = true) : m.NoFaultBelow A s := by
  intro n t hn
  rcases Nat.le_total n k with hnk | hkn
  · have hle := h n hnk
    rw [hn] at hle
    simpa using hle
  · obtain ⟨d, rfl⟩ := Nat.exists_eq_add_of_le' hkn
    have hle := h k (Nat.le_refl k)
    rw [states_add, states_of_isOver hover] at hn
    rw [hn] at hle
    simpa using hle

/-- In a dispatch a tool gets to know of the calls of its own callbacks. -/
theorem perceived?_dispatch (m : Machine σ) (A : Tool) (w : World σ) (d : Dispatch)
    (waiter : Waiter σ) :
    m.perceived? A ⟨w, [], .dispatch d waiter⟩ =
      ((m.invocation? ⟨w, [], .dispatch d waiter⟩).filter fun call => call.tool = A).map
        fun call => .told call.callback call.occurrence := rfl

/-- A tool gets to know nothing of what a callback does before it answers. -/
theorem perceived?_seesAnswersOnly (m : Machine σ) (A : Tool) :
    State.SeesAnswersOnly (m.perceived? A) := by
  intro w level rest script _
  cases script <;> rfl

theorem perceived?_of_isOver (m : Machine σ) (A : Tool) {s : State σ} (h : s.isOver = true) :
    m.perceived? A s = none := by
  unfold State.isOver at h
  split at h
  · rename_i hfocus _
    rw [perceived?, hfocus]
  · cases h

end Machine

/-! ### Orderly registries -/

/-- A registry in which the callbacks of the tool and those of the others keep to what they have to,
and in which nothing is left of tools that are gone. -/
structure Registry.Orderly (behave : Callback → Payload → Script σ) (view : Heap → σ → α)
    (A : Tool) (r : Registry) : Prop where
  reachable : r.Reachable
  clean : r.Clean
  own : ∀ e c, (r.slot A).callback? e = some c → c.KeepsTo behave view
  others : ∀ t, t ≠ A → ∀ e c, (r.slot t).callback? e = some c → c.KeepsOff behave view

namespace Registry

section Orderly

variable {behave : Callback → Payload → Script σ} {view : Heap → σ → α} {A : Tool} {r : Registry}

theorem orderly_empty : Registry.empty.Orderly behave view A := by
  refine ⟨.empty, clean_empty, fun e c h => ?_, fun t _ e c h => ?_⟩ <;>
  · rw [slot_empty, Slot.callback?_vacant] at h
    cases h

theorem Orderly.apply (h : r.Orderly behave view A) {op : Operation}
    (hown : ∀ e c, op = .register A e (some c) → c.KeepsTo behave view)
    (hothers : ∀ t, t ≠ A → ∀ e c, op = .register t e (some c) → c.KeepsOff behave view) :
    (r.apply op).1.Orderly behave view A where
  reachable := h.reachable.after (.operate op)
  clean := h.clean.apply h.reachable op
  own e c hc := (callback?_apply hc).elim (h.own e c) (hown e c)
  others t ht e c hc := (callback?_apply hc).elim (h.others t ht e c) (hothers t ht e c)

theorem Orderly.disable (h : r.Orderly behave view A) {t : Tool}
    (ht : (r.slot t).inUse = true) (site : Site) : (r.disable t site).Orderly behave view A where
  reachable := h.reachable.after (.disable t site)
  clean := h.clean.disable ht site
  own e c hc := h.own e c (by rwa [callback?_disable] at hc)
  others u hu e c hc := h.others u hu e c (by rwa [callback?_disable] at hc)

end Orderly

end Registry

/-! ### What other tools leave as it is -/

namespace World

/-- What has happened was no concern of the tool: its slot and the view are as before, and the
callbacks of all tools are. -/
structure Spares (view : Heap → σ → α) (A : Tool) (w w₁ : World σ) : Prop where
  slot : w₁.registry.slot A = w.registry.slot A
  view : view w₁.heap w₁.memory = view w.heap w.memory
  callbacks : ∀ t e, (w₁.registry.slot t).callback? e = (w.registry.slot t).callback? e

theorem Spares.refl (view : Heap → σ → α) (A : Tool) (w : World σ) : w.Spares view A w :=
  ⟨rfl, rfl, fun _ _ => rfl⟩

theorem Spares.trans {view : Heap → σ → α} {A : Tool} {w w₁ w₂ : World σ}
    (h : w.Spares view A w₁) (h' : w₁.Spares view A w₂) : w.Spares view A w₂ :=
  ⟨h'.slot.trans h.slot, h'.view.trans h.view,
    fun t e => (h'.callbacks t e).trans (h.callbacks t e)⟩

end World

/-! ### Turns in a dispatch -/

namespace Machine

section Scripts

variable (behave : Callback → Payload → Script σ) {view : Heap → σ → α} (A : Tool)

/-- The machine takes a script to an answer, whichever callback it runs for, and nothing is to be
seen of it meanwhile. -/
def Takes (w : World σ) (script : Script σ) (w' : World σ) (a : Answer) : Prop :=
  ∃ n, ∀ {β : Type} {look : State σ → Option β}, State.SeesAnswersOnly look → ∀ level rest,
    (Machine.of behave).Leads look ⟨w, level :: rest, .script script⟩ n []
      ⟨w', level :: rest, .script (.answer a)⟩

/-- What the script does first takes a step, and what is left comes to the same. -/
theorem Takes.head {script next : Script σ} {w w₁ w' : World σ} {a : Answer}
    (hscript : script.isAnswer = false)
    (hadvance : ∀ levels, (Machine.of behave).advance ⟨w, levels, .script script⟩ =
      ⟨w₁, levels, .script next⟩)
    (h : Takes behave w₁ next w' a) : Takes behave w script w' a := by
  obtain ⟨n, hleads⟩ := h
  refine ⟨1 + n, fun {β look} hlook level rest => ?_⟩
  have hstep : (Machine.of behave).Leads look ⟨w, level :: rest, .script script⟩ 1 [] _ :=
    .step_of_none (hlook w level rest script hscript)
  rw [hadvance] at hstep
  exact hstep.trans (hleads hlook level rest)

/-- **The machine takes a script to its outcome.** -/
theorem outcome_leads {script : Script σ} {w w' : World σ} {a : Answer}
    (h : script.outcome? w = some (w', a)) : Takes behave w script w' a := by
  induction script generalizing w with
  | answer answer =>
      cases h
      exact ⟨0, fun _ _ _ => .refl ..⟩
  | inspect k ih => exact .head behave rfl (fun _ => rfl) (ih w h)
  | remember f next ih => exact .head behave rfl (fun _ => rfl) (ih h)
  | allocate lists next ih => exact .head behave rfl (fun _ => rfl) (ih h)
  | setItems address items next ih => exact .head behave rfl (fun _ => rfl) (ih h)
  | operate op k ih => cases h
  | fire o k ih => cases h
  | call limit callable args k ih => cases h

/-- A script that keeps off a view comes to its answer and leaves the view as it was. -/
theorem keepsOff_leads {script : Script σ} (h : script.KeepsOff view) (w : World σ) :
    ∃ heap memory a, view heap memory = view w.heap w.memory ∧
      Takes behave w script ⟨w.registry, heap, memory⟩ a := by
  obtain ⟨heap, memory, a, hcomes, hview⟩ := h.exists_outcome w
  exact ⟨heap, memory, a, hview, outcome_leads behave hcomes⟩

/-- A script that depends on a view only comes to the same answer in both worlds, and to the same
view. -/
theorem keepsTo_leads {script : Script σ} (h : script.KeepsTo view) (w w' : World σ)
    (hview : view w'.heap w'.memory = view w.heap w.memory) (level level' : Level σ)
    (rest rest' : List (Level σ)) :
    ∃ n heap memory heap' memory' a, view heap' memory' = view heap memory ∧
      (Machine.of behave).Leads ((Machine.of behave).perceived? A)
        ⟨w, level :: rest, .script script⟩ n []
        ⟨⟨w.registry, heap, memory⟩, level :: rest, .script (.answer a)⟩ ∧
      (Machine.of behave).Leads ((Machine.of behave).perceived? A)
        ⟨w', level' :: rest', .script script⟩ n []
        ⟨⟨w'.registry, heap', memory'⟩, level' :: rest', .script (.answer a)⟩ := by
  induction h generalizing w w' with
  | answer a =>
      exact ⟨0, w.heap, w.memory, w'.heap, w'.memory, a, hview, .refl .., .refl ..⟩
  | @inspect k same next ih =>
      -- the worlds are not the same, but the script goes by the view
      obtain ⟨n, heap, memory, heap', memory', a, hviews, hleads, hleads'⟩ := ih w w w' hview
      have hsame : k w' = k w := same w w' hview
      rw [← hsame] at hleads'
      exact ⟨1 + n, heap, memory, heap', memory', a, hviews,
        (Leads.step_of_none rfl).trans hleads, (Leads.step_of_none rfl).trans hleads'⟩
  | @remember f script same next ih =>
      obtain ⟨n, heap, memory, heap', memory', a, hviews, hleads, hleads'⟩ :=
        ih { w with memory := f w.memory } { w' with memory := f w'.memory } (same _ _ _ _ hview)
      exact ⟨1 + n, heap, memory, heap', memory', a, hviews,
        (Leads.step_of_none rfl).trans hleads, (Leads.step_of_none rfl).trans hleads'⟩
  | @allocate lists script same next ih =>
      obtain ⟨n, heap, memory, heap', memory', a, hviews, hleads, hleads'⟩ :=
        ih { w with heap := w.heap.addLists lists } { w' with heap := w'.heap.addLists lists }
          (same _ _ _ _ hview)
      exact ⟨1 + n, heap, memory, heap', memory', a, hviews,
        (Leads.step_of_none rfl).trans hleads, (Leads.step_of_none rfl).trans hleads'⟩
  | @setItems address items script same next ih =>
      obtain ⟨n, heap, memory, heap', memory', a, hviews, hleads, hleads'⟩ :=
        ih { w with heap := w.heap.setItems address items }
          { w' with heap := w'.heap.setItems address items } (same _ _ _ _ hview)
      exact ⟨1 + n, heap, memory, heap', memory', a, hviews,
        (Leads.step_of_none rfl).trans hleads, (Leads.step_of_none rfl).trans hleads'⟩

variable {w : World σ} {o : Occurrence} {tool : Tool} {c callback : Callback}
  {rest : List (Tool × Callback)} {version : ℕ}

/-- A tool is passed over if no callback is chosen for it that takes the payload. -/
theorem passed_over (levels : List (Level σ)) (waiter : Waiter σ)
    (h : ∀ callback, (Dispatch.mk o ((tool, c) :: rest) version).choose w.registry tool c =
      some callback → callback.shape ≠ o.payload.shape) :
    (Machine.of behave).invocation?
        ⟨w, levels, .dispatch ⟨o, (tool, c) :: rest, version⟩ waiter⟩ = none ∧
      (Machine.of behave).advance ⟨w, levels, .dispatch ⟨o, (tool, c) :: rest, version⟩ waiter⟩ =
        ⟨w, levels, .dispatch ⟨o, rest, version⟩ waiter⟩ := by
  cases hchoose : (Machine.of behave).policy.choose w.registry ⟨o, (tool, c) :: rest, version⟩
      tool c with
  | none => exact ⟨invocation?_of_none rfl hchoose, advanceDispatch_none rfl hchoose⟩
  | some callback =>
      have hshape := h callback hchoose
      exact ⟨invocation?_of_mismatch rfl hchoose hshape,
        advanceDispatch_mismatch rfl hchoose hshape⟩

/-- A tool is called if the callback that is chosen takes the payload. -/
theorem called (levels : List (Level σ)) (waiter : Waiter σ)
    (hchoose : (Dispatch.mk o ((tool, c) :: rest) version).choose w.registry tool c =
      some callback) (hshape : callback.shape = o.payload.shape) :
    (Machine.of behave).invocation?
        ⟨w, levels, .dispatch ⟨o, (tool, c) :: rest, version⟩ waiter⟩ =
        some ⟨tool, callback, o⟩ ∧
      (Machine.of behave).advance ⟨w, levels, .dispatch ⟨o, (tool, c) :: rest, version⟩ waiter⟩ =
        ⟨w, ⟨tool, callback, ⟨o, rest, version⟩, waiter⟩ :: levels,
          .script (behave callback o.payload)⟩ := by
  have hpolicy : (Machine.of behave).policy.choose w.registry ⟨o, (tool, c) :: rest, version⟩
      tool c = some callback := hchoose
  exact ⟨(calls_of_choose rfl hpolicy hshape).invocation?_eq,
    advanceDispatch_some rfl hpolicy hshape⟩

/-- Nothing is perceived of a tool that is passed over. -/
theorem passed_leads (waiter : Waiter σ)
    (h : ∀ callback, (Dispatch.mk o ((tool, c) :: rest) version).choose w.registry tool c =
      some callback → callback.shape ≠ o.payload.shape) :
    (Machine.of behave).Leads ((Machine.of behave).perceived? A)
      ⟨w, [], .dispatch ⟨o, (tool, c) :: rest, version⟩ waiter⟩ 1 []
      ⟨w, [], .dispatch ⟨o, rest, version⟩ waiter⟩ := by
  obtain ⟨hnone, hadvance⟩ := passed_over behave [] waiter h
  have hstep := Leads.step (Machine.of behave) ((Machine.of behave).perceived? A)
    ⟨w, [], .dispatch ⟨o, (tool, c) :: rest, version⟩ waiter⟩
  rwa [perceived?_dispatch, hnone, hadvance] at hstep

/-- A tool that is called is told the occurrence. -/
theorem called_leads (waiter : Waiter σ)
    (hchoose : (Dispatch.mk o ((tool, c) :: rest) version).choose w.registry tool c =
      some callback) (hshape : callback.shape = o.payload.shape) :
    (Machine.of behave).Leads ((Machine.of behave).perceived? A)
      ⟨w, [], .dispatch ⟨o, (tool, c) :: rest, version⟩ waiter⟩ 1
      (if tool = A then [.told callback o] else [])
      ⟨w, [⟨tool, callback, ⟨o, rest, version⟩, waiter⟩],
        .script (behave callback o.payload)⟩ := by
  obtain ⟨hcall, hadvance⟩ := called behave [] waiter hchoose hshape
  have hstep := Leads.step (Machine.of behave) ((Machine.of behave).perceived? A)
    ⟨w, [], .dispatch ⟨o, (tool, c) :: rest, version⟩ waiter⟩
  have hseen : ((Machine.of behave).perceived? A
      ⟨w, [], .dispatch ⟨o, (tool, c) :: rest, version⟩ waiter⟩).toList =
        if tool = A then [.told callback o] else [] := by
    rw [perceived?_dispatch, hcall, Option.filter_some]
    by_cases hA : tool = A <;> simp [hA]
  rwa [hseen, hadvance] at hstep

end Scripts

section Others

variable {behave : Callback → Payload → Script σ} {view : Heap → σ → α} {A : Tool}

/-- What can come of the turns of other tools: the dispatch goes on with the tools behind, or one of
them has faulted. -/
def PassesOn (behave : Callback → Payload → Script σ) (view : Heap → σ → α) (A : Tool)
    (w : World σ) (o : Occurrence) (front rest : List (Tool × Callback)) (version : ℕ)
    (waiter : Waiter σ) : Prop :=
  ∃ n w₁, w₁.registry.Orderly behave view A ∧ w.Spares view A w₁ ∧
    ((Machine.of behave).Leads ((Machine.of behave).perceived? A)
        ⟨w, [], .dispatch ⟨o, front ++ rest, version⟩ waiter⟩ n []
        ⟨w₁, [], .dispatch ⟨o, rest, version⟩ waiter⟩ ∨
      ∃ fault, (Machine.of behave).Leads ((Machine.of behave).perceived? A)
          ⟨w, [], .dispatch ⟨o, front ++ rest, version⟩ waiter⟩ n []
          (State.wake w₁ [] waiter (.error fault)) ∧
        ∃ k, ∃ target ∈ front, ((Machine.of behave).states
          ⟨w, [], .dispatch ⟨o, front ++ rest, version⟩ waiter⟩ k).fault? = some target.1)

/-- **The turn of another tool** leaves the slot of the tool and the view as they are. -/
theorem other_turn {w : World σ} (hw : w.registry.Orderly behave view A) {o : Occurrence}
    {tool : Tool} {c : Callback} (htool : tool ≠ A)
    (hc : (w.registry.slot tool).callback? o.event = some c) (rest : List (Tool × Callback))
    (version : ℕ) (waiter : Waiter σ) :
    PassesOn behave view A w o [(tool, c)] rest version waiter := by
  by_cases htakes : ∃ callback,
      (Dispatch.mk o ((tool, c) :: rest) version).choose w.registry tool c = some callback ∧
        callback.shape = o.payload.shape
  · obtain ⟨callback, hchoose, hshape⟩ := htakes
    have hregistered : (w.registry.slot tool).callback? o.event = some callback :=
      Dispatch.callback?_of_choose hc hchoose
    have hcalled := called_leads behave A waiter hchoose hshape
    rw [if_neg htool] at hcalled
    obtain ⟨heap, memory, a, hview, n, hanswer⟩ := keepsOff_leads behave
      (hw.others tool htool _ _ hregistered o.payload hshape) w
    have hrun := hcalled.trans (hanswer (perceived?_seesAnswersOnly _ A) _ [])
    have hback := hrun.trans (.step_of_none rfl)
    have hspares : w.Spares view A ⟨w.registry, heap, memory⟩ := ⟨rfl, hview, fun _ _ => rfl⟩
    cases a with
    | error fault =>
        have hfaults := congrArg State.fault? hrun.states
        exact ⟨_, ⟨w.registry, heap, memory⟩, hw, hspares, Or.inr ⟨fault, hback, 1 + n,
          (tool, c), List.mem_singleton_self _, hfaults⟩⟩
    | ok action =>
        cases action with
        | proceed => exact ⟨_, ⟨w.registry, heap, memory⟩, hw, hspares, Or.inl hback⟩
        | disable =>
            have howned := hw.reachable.inUse_of_callback? hregistered
            refine ⟨_, ⟨w.registry.disable tool o.site, heap, memory⟩, hw.disable howned o.site,
              ⟨?_, hview, fun t e => w.registry.callback?_disable tool t o.site e⟩,
              Or.inl hback⟩
            exact (w.registry.slot_disable tool A o.site).trans (if_neg htool)
  -- no callback is chosen, or it takes another shape
  · have hpassed := passed_leads behave A waiter fun callback hchoose hshape =>
      htakes ⟨callback, hchoose, hshape⟩
    exact ⟨1, w, hw, .refl .., Or.inl hpassed⟩

/-- **The turns of other tools** leave the slot of the tool and the view as they are. -/
theorem other_turns {w : World σ} (hw : w.registry.Orderly behave view A) {o : Occurrence}
    {front : List (Tool × Callback)}
    (hfront : ∀ target ∈ front, target.1 ≠ A ∧
      (w.registry.slot target.1).callback? o.event = some target.2)
    (rest : List (Tool × Callback)) (version : ℕ) (waiter : Waiter σ) :
    PassesOn behave view A w o front rest version waiter := by
  induction front generalizing w with
  | nil => exact ⟨0, w, hw, .refl .., Or.inl (.refl ..)⟩
  | cons head front ih =>
      obtain ⟨tool, c⟩ := head
      obtain ⟨htool, hc⟩ := hfront _ (List.mem_cons_self ..)
      obtain ⟨n, w₁, hw₁, hspares, hturn⟩ := other_turn hw htool hc (front ++ rest) version waiter
      rcases hturn with hon | ⟨fault, hwoken, k, target, htarget, hk⟩
      · have hfront₁ : ∀ target ∈ front, target.1 ≠ A ∧
            (w₁.registry.slot target.1).callback? o.event = some target.2 := fun target ht => by
          rw [hspares.callbacks]
          exact hfront target (List.mem_cons_of_mem _ ht)
        obtain ⟨m, w₂, hw₂, hspares₂, hturns⟩ := ih hw₁ hfront₁
        refine ⟨n + m, w₂, hw₂, hspares.trans hspares₂, ?_⟩
        rcases hturns with hon₂ | ⟨fault, hwoken, k, target, htarget, hk⟩
        · exact Or.inl (hon.trans hon₂)
        · refine Or.inr ⟨fault, hon.trans hwoken, k + n, target, List.mem_cons_of_mem _ htarget, ?_⟩
          rw [states_add]
          exact (congrArg (fun s => ((Machine.of behave).states s k).fault?) hon.states).trans hk
      · rw [List.mem_singleton] at htarget
        refine ⟨n, w₁, hw₁, hspares, Or.inr ⟨fault, hwoken, k, target, ?_, hk⟩⟩
        rw [htarget]
        exact List.mem_cons_self ..

/-- If only other tools are left, the host goes on, whether or not one of them faults. -/
theorem others_finish {w : World σ} (hw : w.registry.Orderly behave view A) {o : Occurrence}
    {back : List (Tool × Callback)}
    (hback : ∀ target ∈ back, target.1 ≠ A ∧
      (w.registry.slot target.1).callback? o.event = some target.2)
    (version : ℕ) (next : Script σ) :
    ∃ n w₁, w₁.registry.Orderly behave view A ∧ w.Spares view A w₁ ∧
      (Machine.of behave).Leads ((Machine.of behave).perceived? A)
        ⟨w, [], .dispatch ⟨o, back, version⟩ (.script fun _ => next)⟩ n []
        ⟨w₁, [], .script next⟩ := by
  obtain ⟨n, w₁, hw₁, hspares, hturns⟩ := other_turns hw hback [] version (.script fun _ => next)
  rw [List.append_nil] at hturns
  rcases hturns with hon | ⟨fault, hwoken, -⟩
  · exact ⟨n + 1, w₁, hw₁, hspares, hon.trans (.step_of_none rfl)⟩
  · exact ⟨n, w₁, hw₁, hspares, hwoken⟩

end Others

end Machine

end Tracepoint
