/-
**What a tool records is its part of one stream.**

A call comes to report a sequence of occurrences.  As long as callbacks do no more than record, it
is always the same sequence, whoever listens: that of the thread whose reports nobody hears.  A tool
gets the part of it that it has asked for.  It has asked for an occurrence if it has a callback for
the event and the event is delivered for what it has armed everywhere or in the code unit; and it
hears the occurrence if, on top of that, no disabled site silences it.

Sites may be disabled from before, even if the callbacks that are registered now ask for nothing of
the kind, since a callback that is put in the place of another one does not lift what the other one
had disabled.  So what a tool has asked for is not always what it hears.

Main definitions:

* `Tracepoint.Script.Records`, `Tracepoint.Callback.Records` — scripts and callbacks that do no
  more than record;
* `Tracepoint.Activity.stream` — **the occurrences that a thread comes to report**;
* `Tracepoint.Slot.asksFor`, `Tracepoint.Slot.hears` — what a tool has asked for, and what it hears;
* `Tracepoint.Machine.recording` — what the callbacks of a tool are told.

Main results:

* `Tracepoint.Machine.dispatch_leads` — a report is told to all tools that it goes to;
* `Tracepoint.Machine.thread_leads` — **the reports of a thread are those of the stream**;
* `Tracepoint.Machine.recording_is_projection` — **what a tool records is what it hears of the
  stream**;
* `Tracepoint.Machine.disabled_not_recorded` — and not what it has asked for.
-/

import Tracepoint.Code.Draft
import Tracepoint.Proofs.Delivery.Gate
import Tracepoint.Proofs.Machine.Transparency
import Tracepoint.Proofs.Thread.Turn

set_option relaxedAutoImplicit false
set_option autoImplicit false

namespace Tracepoint

variable {σ : Type}

/-! ### Callbacks that record -/

/-- A script that does no more than record: it looks around and keeps its memory, and then lets
things take their course. -/
inductive Script.Records : Script σ → Prop
  | proceed : Records (.answer (.ok .proceed))
  | inspect {k : World σ → Script σ} (next : ∀ w, Records (k w)) : Records (.inspect k)
  | remember {f : σ → σ} {script : Script σ} (next : Records script) :
      Records (.remember f script)

/-- A callback that does no more than record the payloads of its shape. -/
def Callback.Records (behave : Callback → Payload → Script σ) (c : Callback) : Prop :=
  ∀ p : Payload, c.shape = p.shape → (behave c p).Records

/-! ### What a tool hears -/

namespace Slot

/-- A tool has asked for an occurrence: it has a callback for the event, which is delivered for what
is armed everywhere or in the code unit. -/
def asksFor (s : Slot) (o : Occurrence) : Bool :=
  (s.callback? o.event).isSome &&
    ((s.globalEvents ∪ s.localSet o.payload.code).delivered).has o.event

/-- A tool hears what it has asked for and what is not disabled for it at the place. -/
def hears (s : Slot) (o : Occurrence) : Bool := s.asksFor o && !s.isDisabled o.site

/-- A tool hears what goes to it. -/
theorem isSome_target? (s : Slot) (o : Occurrence) : (s.target? o.site).isSome = s.hears o := by
  unfold target?
  rw [show s.effective o.site.code =
    (s.globalEvents ∪ s.localSet o.payload.code).delivered from rfl]
  rw [hears, asksFor, show o.site.event = o.event from rfl]
  cases ((s.globalEvents ∪ s.localSet o.payload.code).delivered).has o.event <;>
    cases s.isDisabled o.site <;> simp

/-- A tool for which nothing is disabled hears what it has asked for. -/
theorem hears_eq_asksFor {s : Slot} (h : s.disabled = ∅) (o : Occurrence) :
    s.hears o = s.asksFor o := by
  have hon : s.isDisabled o.site = false := by
    rw [Bool.eq_false_iff, Ne, isDisabled_iff, h]
    rintro ⟨entry, hentry, -⟩
    simp at hentry
  rw [hears, hon, Bool.not_false, Bool.and_true]

/-- What is armed in a code unit makes no difference elsewhere. -/
theorem hears_setLocal_of_ne (s : Slot) {code : CodeId} (events : EventSet) {o : Occurrence}
    (h : o.payload.code ≠ code) : (s.setLocal code events).hears o = s.hears o := by
  have hset : (s.setLocal code events).localSet o.payload.code = s.localSet o.payload.code := by
    rw [localSet_setLocal, if_neg h]
  rw [hears, hears, asksFor, asksFor, hset]
  rfl

/-- What is armed in a code unit where nothing was armed takes nothing away. -/
theorem hears_setLocal_of_hears {s : Slot} {code : CodeId} (hnone : s.localSet code = ∅)
    (events : EventSet) {o : Occurrence} (h : s.hears o = true) :
    (s.setLocal code events).hears o = true := by
  by_cases hcode : o.payload.code = code
  · rw [hears, asksFor, Bool.and_eq_true, Bool.and_eq_true] at h ⊢
    obtain ⟨⟨hcallback, harmed⟩, hon⟩ := h
    refine ⟨⟨hcallback, EventSet.has_delivered_mono (fun e he => ?_) harmed⟩, hon⟩
    rw [hcode, hnone, EventSet.has_union, EventSet.has_empty, Bool.or_false] at he
    rw [EventSet.has_union, Bool.or_eq_true]
    exact Or.inl he
  · rwa [hears_setLocal_of_ne s events hcode]

end Slot

/-! ### The stream of a thread -/

namespace Activity

/-- What a thread reports at present. -/
def occurrence? : Activity → Option Occurrence
  | .reporting _ o _ => some o
  | .finished _ => none

/-- **The occurrences that a thread comes to report** in its first `k` reports, if nobody hears
them. -/
def stream : ℕ → Heap × Activity → List Occurrence
  | 0, _ => []
  | k + 1, p => p.2.occurrence?.toList ++ stream k (unheard p)

theorem stream_finished (k : ℕ) (h : Heap) (r : Except Exception Value) :
    stream k (h, .finished r) = [] := by
  induction k with
  | zero => rfl
  | succ k ih => exact ih

end Activity

/-- What is told has the shape of the event. -/
theorem Frame.Tells.shape_eq {f : Frame} {e : Event} {d : Detail} {j : Juncture}
    (h : f.Tells e d j) : d.shape = e.shape := by
  cases h <;> rfl

/-! ### Dispatches to callbacks that record -/

namespace Registry

/-- The reports of an occurrence to the tools that it goes to, in ascending order. -/
def deliveries (r : Registry) (o : Occurrence) : List Invocation :=
  (r.targets o.site).map fun target => ⟨target.1, target.2, o⟩

/-- Of a report, a tool is told once what it hears. -/
theorem filter_deliveries (r : Registry) (o : Occurrence) (t : Tool) :
    ((r.deliveries o).filter (fun call => call.tool = t)).map (·.occurrence) =
      if (r.slot t).hears o then [o] else [] := by
  -- among any slots without repetition, those of the tool are the tool itself or nothing
  have key : ∀ ts : List Tool, ts.Nodup →
      (((ts.filterMap fun u => (r.target? u o.site).map fun c => (u, c)).map
        fun target => (⟨target.1, target.2, o⟩ : Invocation)).filter
          (fun call => call.tool = t)).map (·.occurrence) =
        if t ∈ ts ∧ (r.target? t o.site).isSome = true then [o] else [] := by
    intro ts hts
    induction ts with
    | nil => simp
    | cons u ts ih =>
        obtain ⟨hu, hts⟩ := List.nodup_cons.1 hts
        by_cases hut : u = t
        · subst hut
          cases htarget : r.target? u o.site with
          | none => simp [htarget, ih hts]
          | some c => simp [htarget, ih hts, hu]
        · have hne : ¬ t = u := fun h => hut h.symm
          cases htarget : r.target? u o.site with
          | none => simp [htarget, ih hts, hne]
          | some c => simp [htarget, ih hts, hut, hne]
  have hall := key Tool.all (by decide)
  rw [deliveries, targets, hall, Registry.target?_eq, Slot.isSome_target?]
  simp [Tool.mem_all]

end Registry

namespace Machine

/-- What the callbacks of a tool are told in the first `n` steps, in order. -/
def recording (m : Machine σ) (s : State σ) (t : Tool) (n : ℕ) : List Occurrence :=
  ((m.invocations s n).filter (fun call => call.tool = t)).map (·.occurrence)

section Recording

variable {behave : Callback → Payload → Script σ}

/-- A script that records comes to its answer, and leaves everything but the memory alone. -/
theorem records_leads {script : Script σ} (h : script.Records) (w : World σ)
    (levels : List (Level σ)) :
    ∃ n memory, (Machine.of behave).Leads (Machine.of behave).invocation?
      ⟨w, levels, .script script⟩ n []
      ⟨{ w with memory }, levels, .script (.answer (.ok .proceed))⟩ := by
  induction h generalizing w with
  | proceed => exact ⟨0, w.memory, .refl ..⟩
  | inspect next ih =>
      obtain ⟨n, memory, hleads⟩ := ih w w
      exact ⟨1 + n, memory, (Leads.step_of_none (invocation?_script ..)).trans hleads⟩
  | @remember f script next ih =>
      obtain ⟨n, memory, hleads⟩ := ih { w with memory := f w.memory }
      exact ⟨1 + n, memory, (Leads.step_of_none (invocation?_script ..)).trans hleads⟩

/-- **A report is told to all tools that it goes to**, if their callbacks do no more than record. -/
theorem dispatch_leads {o : Occurrence} {pending : List (Tool × Callback)}
    (hrecord : ∀ target ∈ pending, target.2.Records behave ∧ target.2.shape = o.payload.shape)
    (w : World σ) (levels : List (Level σ)) (waiter : Waiter σ) :
    ∃ n memory, (Machine.of behave).Leads (Machine.of behave).invocation?
      ⟨w, levels, .dispatch ⟨o, pending, w.registry.version⟩ waiter⟩ n
      (pending.map fun target => ⟨target.1, target.2, o⟩)
      (State.wake { w with memory } levels waiter (.ok ())) := by
  induction pending generalizing w with
  | nil => exact ⟨1, w.memory, Leads.step_of_none (invocation?_of_nil rfl)⟩
  | cons head rest ih =>
      obtain ⟨tool, c⟩ := head
      obtain ⟨hc, hshape⟩ := hrecord _ (List.mem_cons_self ..)
      -- nothing has changed since the dispatch was opened, so that the snapshot is used
      have hchoose : (Machine.of behave).policy.choose w.registry
          ⟨o, (tool, c) :: rest, w.registry.version⟩ tool c = some c := if_pos rfl
      have hcall : (Machine.of behave).invocation?
          ⟨w, levels, .dispatch ⟨o, (tool, c) :: rest, w.registry.version⟩ waiter⟩ =
          some ⟨tool, c, o⟩ := (calls_of_choose rfl hchoose hshape).invocation?_eq
      have hcalled := Leads.step (Machine.of behave) (Machine.of behave).invocation?
        ⟨w, levels, .dispatch ⟨o, (tool, c) :: rest, w.registry.version⟩ waiter⟩
      rw [hcall, advance, advanceDispatch_some rfl hchoose hshape] at hcalled
      obtain ⟨n, memory, hanswer⟩ := records_leads (hc o.payload hshape) w
        (⟨tool, c, ⟨o, rest, w.registry.version⟩, waiter⟩ :: levels)
      obtain ⟨k, memory', hrest⟩ := ih (fun target ht => hrecord target
        (List.mem_cons_of_mem _ ht)) { w with memory }
      have hback : (Machine.of behave).Leads (Machine.of behave).invocation?
          ⟨{ w with memory }, ⟨tool, c, ⟨o, rest, w.registry.version⟩, waiter⟩ :: levels,
            .script (.answer (.ok .proceed))⟩ 1 []
          ⟨{ w with memory }, levels, .dispatch ⟨o, rest, w.registry.version⟩ waiter⟩ :=
        .step_of_none (invocation?_script ..)
      exact ⟨1 + (n + (1 + k)), memory',
        hcalled.trans (hanswer.trans (hback.trans hrest))⟩

/-- The same of a report whether or not it is let through. -/
theorem openDispatch_leads {w : World σ} (hw : w.registry.Reachable)
    (hrecord : w.registry.HasOnly (Callback.Records behave)) {o : Occurrence}
    (hshape : o.payload.shape = o.event.shape) (levels : List (Level σ)) (waiter : Waiter σ) :
    ∃ n memory, (Machine.of behave).Leads (Machine.of behave).invocation?
      ((Machine.of behave).openDispatch w levels o waiter) n (w.registry.deliveries o)
      (State.wake { w with memory } levels waiter (.ok ())) := by
  rcases openDispatch_cases behave hw levels o waiter with hopen | ⟨hnobody, hclosed⟩
  · rw [hopen]
    refine dispatch_leads (fun target htarget => ?_) w levels waiter
    obtain ⟨-, -, hc⟩ := Registry.target?_eq_some.1 (Registry.mem_targets.1 htarget)
    exact ⟨hrecord _ _ _ hc, ((hw.tidy _).shape _ _ hc).trans hshape.symm⟩
  · rw [hclosed, Registry.deliveries, hnobody]
    exact ⟨0, w.memory, .refl ..⟩

/-- **The reports of a thread are those of the stream**, told to the tools that they go to. -/
theorem thread_leads (behave : Callback → Payload → Script σ) (k : ℕ) {w : World σ}
    (hw : w.registry.Reachable)
    (hrecord : w.registry.HasOnly (Callback.Records behave)) {a : Activity} (ha : a.Sound) :
    ∃ n, k ≤ n ∧
      (Machine.of behave).invocations ⟨w, [], .thread a fun _ => .done⟩ n =
        (Activity.stream k (w.heap, a)).flatMap w.registry.deliveries := by
  induction k generalizing w a with
  | zero => exact ⟨0, Nat.le_refl 0, rfl⟩
  | succ k ih =>
      cases a with
      | finished r =>
          -- the call is over, and nothing happens any more
          refine ⟨k + 1, Nat.le_refl _, ?_⟩
          rw [Activity.stream_finished, List.flatMap_nil]
          refine List.filterMap_eq_nil_iff.2 fun i _ => ?_
          cases i with
          | zero => rfl
          | succ i =>
              rw [states_after_finished (n := 0) rfl (Nat.succ_pos i)]
              rfl
      | reporting t o j =>
          have hreports : t.Reports o j := ha
          obtain ⟨d, memory, htold⟩ := openDispatch_leads hw hrecord
            (hreports.tells.shape_eq : o.payload.shape = o.event.shape) []
            (.thread t j fun _ => .done)
          have hopened : (Machine.of behave).Leads (Machine.of behave).invocation?
              ⟨w, [], .thread (.reporting t o j) fun _ => .done⟩ 1 []
              ((Machine.of behave).openDispatch w [] o (.thread t j fun _ => .done)) :=
            .step_of_none (invocation?_thread ..)
          have hreport := hopened.trans htold
          -- the thread goes on in a world with the same registry
          obtain ⟨n, hkn, hn⟩ := ih (w := ⟨w.registry, (t.proceed w.heap j).1, memory⟩) hw hrecord
            (Activity.sound_resume hreports w.heap (.ok ()))
          refine ⟨1 + d + n, by omega, ?_⟩
          have hsplit := (Machine.of behave).observed_add (Machine.of behave).invocation?
            ⟨w, [], .thread (.reporting t o j) fun _ => .done⟩ (1 + d) n
          rw [hreport.observed, hreport.states] at hsplit
          refine hsplit.trans ?_
          rw [List.nil_append]
          exact congrArg (w.registry.deliveries o ++ ·) hn

end Recording

theorem filter_flatMap_deliveries (r : Registry) (t : Tool) (os : List Occurrence) :
    ((os.flatMap r.deliveries).filter (fun call => call.tool = t)).map (·.occurrence) =
      os.filter (r.slot t).hears := by
  induction os with
  | nil => rfl
  | cons o os ih =>
      rw [List.flatMap_cons, List.filter_append, List.map_append, ih, r.filter_deliveries o t,
        List.filter_cons]
      split <;> rfl

theorem recording_prefix (m : Machine σ) (s : State σ) (t : Tool) {n k : ℕ} (h : n ≤ k) :
    m.recording s t n <+: m.recording s t k := by
  obtain ⟨d, rfl⟩ := Nat.exists_eq_add_of_le h
  have hadd : m.invocations s (n + d) =
      m.invocations s n ++ m.observed m.invocation? (m.states s n) d :=
    m.observed_add m.invocation? s n d
  rw [recording, recording, hadd, List.filter_append, List.map_append]
  exact List.prefix_append ..

theorem recording_of_isOver {m : Machine σ} {s : State σ} (t : Tool) {n k : ℕ}
    (hover : (m.states s n).isOver = true) (h : n ≤ k) :
    m.recording s t k = m.recording s t n := by
  have hsame : m.invocations s k = m.invocations s n :=
    observed_of_isOver (fun _ => m.invocation?_of_isOver) hover h
  rw [recording, recording, hsame]

/-- **What a tool records is what it hears of the stream.**  The stream of a call depends on what is
called in which heap and not on who listens.  If all registered callbacks do no more than record,
then at every moment of the call each tool has recorded a beginning of its part of the stream; it
records as much of its part as one likes; and when the call is over it has recorded all of it.  A
tool for which nothing is disabled hears what it has asked for, and to arm events in a code unit
where it had armed none adds reports from there and changes nothing elsewhere. -/
theorem recording_is_projection (behave : Callback → Payload → Script σ) {w : World σ}
    (hw : w.registry.Reachable) (hrecord : w.registry.HasOnly (Callback.Records behave))
    (limit : ℕ) (callable : Value) (args : List Value) :
    let s : State σ := .initial w (.call limit callable args fun _ => .done)
    let stream (k : ℕ) := Activity.stream k (Activity.call w.heap limit callable args)
    (∀ n t, (Machine.of behave).recording s t n <+: (stream n).filter (w.registry.slot t).hears) ∧
      (∀ k, ∃ n, ∀ t, (Machine.of behave).recording s t n =
        (stream k).filter (w.registry.slot t).hears) ∧
      (∀ n, ((Machine.of behave).states s n).isOver = true → ∀ k, n ≤ k → ∀ t,
        (Machine.of behave).recording s t n = (stream k).filter (w.registry.slot t).hears) ∧
      (∀ t, (w.registry.slot t).disabled = ∅ →
        (w.registry.slot t).hears = (w.registry.slot t).asksFor) ∧
      ∀ t code events o,
        (o.payload.code ≠ code →
          ((w.registry.slot t).setLocal code events).hears o = (w.registry.slot t).hears o) ∧
        ((w.registry.slot t).localSet code = ∅ → (w.registry.slot t).hears o = true →
          ((w.registry.slot t).setLocal code events).hears o = true) := by
  intro s stream
  have hreached : ∀ k, ∃ n, k ≤ n ∧ ∀ t, (Machine.of behave).recording s t n =
      (stream k).filter (w.registry.slot t).hears := fun k => by
    obtain ⟨n, hkn, hn⟩ := thread_leads behave k
      (w := { w with heap := (Activity.call w.heap limit callable args).1 }) hw hrecord
      (Activity.sound_call w.heap limit callable args)
    refine ⟨1 + n, by omega, fun t => ?_⟩
    -- the first step makes the call and tells nobody anything
    have hcalled : (Machine.of behave).invocations s (1 + n) =
        (stream k).flatMap w.registry.deliveries :=
      ((Machine.of behave).observed_add (Machine.of behave).invocation? s 1 n).trans hn
    rw [recording, hcalled, filter_flatMap_deliveries]
  refine ⟨fun n t => ?_, fun k => ?_, fun n hover k hnk t => ?_, fun t hnone => ?_,
    fun t code events o => ⟨?_, ?_⟩⟩
  · obtain ⟨k, hnk, hk⟩ := hreached n
    rw [← hk t]
    exact recording_prefix _ s t hnk
  · obtain ⟨n, -, hn⟩ := hreached k
    exact ⟨n, hn⟩
  · obtain ⟨i, hki, hi⟩ := hreached k
    rw [← hi t]
    exact (recording_of_isOver t hover (Nat.le_trans hnk hki)).symm
  · exact funext (Slot.hears_eq_asksFor hnone)
  · exact fun hcode => Slot.hears_setLocal_of_ne _ events hcode
  · exact fun hnone hears => Slot.hears_setLocal_of_hears hnone events hears

/-- A tool listens for lines everywhere, and another one for what returns from one function. -/
def audience : Registry :=
  .operated [.claim .debugger "debugger", .register .debugger .line (some ⟨0, .line⟩),
    .setGlobal .debugger (.single .line), .claim .coverage "coverage",
    .register .coverage .frameReturn (some ⟨1, .code⟩),
    .setLocal .coverage (.loaded 0) (.single .frameReturn)]

/-- The callbacks write down that they were called. -/
def jot : Callback → Payload → Script (List ℕ) := fun c _ =>
  .remember (c.id :: ·) (.answer (.ok .proceed))

theorem records_jot (c : Callback) : c.Records jot := fun _ _ => .remember .proceed

/-- The function is called where the tools of a registry listen. -/
def echoing (r : Registry) : State (List ℕ) :=
  .initial ⟨r, { Heap.empty with codes := #[echo] }, []⟩
    (.call 9 (.function 0) [.int 3] fun _ => .done)

/-- One tool records the line and the other one the return, and it makes no difference to either of
them that the other one listens. -/
theorem audience_is_projection :
    ((Machine.of jot).states (echoing audience) 20).isOver = true ∧
      ∀ t, (Machine.of jot).recording (echoing audience) t 20 =
        (Activity.stream 20 (Activity.call { Heap.empty with codes := #[echo] } 9 (.function 0)
          [.int 3])).filter (audience.slot t).hears := by
  have hover : ((Machine.of jot).states (echoing audience) 20).isOver = true := by decide +kernel
  obtain ⟨-, -, hwhole, -⟩ := recording_is_projection jot
    (w := ⟨audience, { Heap.empty with codes := #[echo] }, []⟩)
    (Registry.reachable_operated _) (fun _ _ c _ => records_jot c) 9 (.function 0) [.int 3]
  exact ⟨hover, hwhole 20 hover 20 (Nat.le_refl 20)⟩

example : (((Machine.of jot).recording (echoing audience) .debugger 20).map (·.event),
    ((Machine.of jot).recording (echoing audience) .coverage 20).map (·.event)) =
      ([.line], [.frameReturn]) := by decide +kernel

/-- The same tools, after the line of the function was disabled for the first one. -/
def muted : Registry := audience.disable .debugger ⟨.line, .loaded 0, 0⟩

/-- **What a tool records is not what it has asked for**: the two registries have the same callbacks
and the same events armed, and there is no one stream of the function, which is built from two
instructions, such that both recordings are that part of it. -/
theorem disabled_not_recorded :
    Source.build ⟨"echo", 1, 1, false, [.line 1, .emit (.loadLocal 0), .emit .ret]⟩ = .ok echo ∧
      ¬ ∃ stream : List Occurrence, ∀ r : Registry, r.Reachable →
        r.HasOnly (Callback.Records jot) → ∀ t n,
          ((Machine.of jot).states (echoing r) n).isOver = true →
            (Machine.of jot).recording (echoing r) t n = stream.filter (r.slot t).asksFor := by
  refine ⟨rfl, ?_⟩
  rintro ⟨stream, hstream⟩
  have haudience : audience.Reachable := Registry.reachable_operated _
  have hheard := hstream audience haudience (fun _ _ c _ => records_jot c) .debugger 20
    (by decide +kernel)
  have hmuted := hstream muted (haudience.after (.disable .debugger ⟨.line, .loaded 0, 0⟩))
    (fun _ _ c _ => records_jot c) .debugger 20 (by decide +kernel)
  -- both have asked for the same
  have hasks : (muted.slot .debugger).asksFor = (audience.slot .debugger).asksFor := by
    rw [muted, Registry.slot_disable, if_pos rfl]
    rfl
  rw [hasks, ← hheard] at hmuted
  have hlength := congrArg List.length hmuted
  revert hlength
  decide +kernel

end Machine

end Tracepoint
