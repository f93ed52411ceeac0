/-
**Tools that only listen leave a program as it is.**

A callback is *quiet* if it never faults, leaves the heap alone and calls nothing in the machine.
It may look at everything, keep a memory, operate on the registry in any way, report occurrences
itself to quiet callbacks, and ask for sites to be disabled.

A thread whose reports nobody hears goes from one report to the next without stopping.  With quiet
callbacks the machine makes the same way with detours: at each report the thread waits until the
dispatch is over, and then goes on in the heap in which it reported, whoever was called and whatever
has become of the registry.  A detour ends, so that the thread comes to its end in the one case if
it does in the other.

Main definitions:

* `Tracepoint.Script.Quiet`, `Tracepoint.Machine.EndsQuietly` — quiet scripts, and what comes of
  them;
* `Tracepoint.Activity.unheard` — a thread goes on to its next report;
* `Tracepoint.Machine.Returns` — a call from outside comes to its end.

Main results:

* `Tracepoint.Machine.openDispatch_reaches` — every report is over at some time;
* `Tracepoint.Machine.endsQuietly_of_quiet` — a quiet script comes to its answer;
* `Tracepoint.Machine.keeps_pace` — **the machine follows the thread that nobody hears**;
* `Tracepoint.Machine.exists_returns_iff` — a call comes to the end of that thread;
* `Tracepoint.Machine.call_same_unwatched` — **calls are the same whether tools listen or not**.
-/

import Tracepoint.Proofs.Machine.Run
import Tracepoint.Proofs.Registry.Eligible

set_option relaxedAutoImplicit false
set_option autoImplicit false

namespace Tracepoint

variable {σ : Type}

/-! ### Quiet scripts -/

/-- **A quiet script**: it ends without a fault, leaves the heap alone, and registers callbacks of
a kind only. -/
inductive Script.Quiet (P : Callback → Prop) (behave : Callback → Payload → Script σ) :
    Script σ → Prop
  | answer (action : Action) : Quiet P behave (.answer (.ok action))
  | inspect {k : World σ → Script σ} (next : ∀ w, Quiet P behave (k w)) :
      Quiet P behave (.inspect k)
  | remember {f : σ → σ} {script : Script σ} (next : Quiet P behave script) :
      Quiet P behave (.remember f script)
  | operate {op : Operation} {k : Except MonitorError (Option Callback) → Script σ}
      (allowed : op.RegistersOnly P) (next : ∀ reply, Quiet P behave (k reply)) :
      Quiet P behave (.operate op k)
  | fire {o : Occurrence} {k : Except Exception Unit → Script σ}
      (called : ∀ c, P c → c.shape = o.payload.shape → Quiet P behave (behave c o.payload))
      (next : Quiet P behave (k (.ok ()))) : Quiet P behave (.fire o k)

/-- Callbacks of a kind are quiet. -/
def QuietCallbacks (P : Callback → Prop) (behave : Callback → Payload → Script σ) : Prop :=
  ∀ c p, P c → c.shape = p.shape → (behave c p).Quiet P behave

namespace Machine

/-! ### From one state to another -/

/-- A state comes after another one. -/
def Reaches (m : Machine σ) (s s' : State σ) : Prop := ∃ n, m.states s n = s'

theorem Reaches.refl (m : Machine σ) (s : State σ) : m.Reaches s s := ⟨0, rfl⟩

theorem Reaches.trans {m : Machine σ} {s s' s'' : State σ} (h : m.Reaches s s')
    (h' : m.Reaches s' s'') : m.Reaches s s'' := by
  obtain ⟨n, rfl⟩ := h
  obtain ⟨k, rfl⟩ := h'
  exact ⟨k + n, m.states_add s k n⟩

theorem Reaches.head {m : Machine σ} {s s' : State σ} (h : m.Reaches (m.advance s) s') :
    m.Reaches s s' := by
  obtain ⟨n, rfl⟩ := h
  exact ⟨n + 1, m.states_succ' s n⟩

/-! ### Detours -/

section Detours

variable {P : Callback → Prop} {behave : Callback → Payload → Script σ}

/-- A script comes to an answer without a fault, leaves the heap alone and only callbacks of a
kind registered. -/
def EndsQuietly (P : Callback → Prop) (behave : Callback → Payload → Script σ)
    (script : Script σ) : Prop :=
  ∀ (w : World σ) (levels : List (Level σ)), w.registry.HasOnly P →
    ∃ w' action, w'.heap = w.heap ∧ w'.registry.HasOnly P ∧
      (Machine.of behave).Reaches ⟨w, levels, .script script⟩
        ⟨w', levels, .script (.answer (.ok action))⟩

/-- The callback that a dispatch chooses is that of the snapshot or a registered one. -/
theorem of_choose {r : Registry} {d : Dispatch} {t : Tool} {snapshot c : Callback}
    (hr : r.HasOnly P) (hs : P snapshot) (h : d.choose r t snapshot = some c) : P c := by
  unfold Dispatch.choose at h
  split at h
  · cases h
    exact hs
  · exact hr t _ c (Registry.target?_eq_some.1 h).2.2

/-- A dispatch is over at some time if each callback that it may call ends quietly. -/
theorem dispatch_reaches {o : Occurrence}
    (hc : ∀ c, P c → c.shape = o.payload.shape → EndsQuietly P behave (behave c o.payload))
    {pending : List (Tool × Callback)} (hp : ∀ target ∈ pending, P target.2) (version : ℕ)
    {w : World σ} (hw : w.registry.HasOnly P) (levels : List (Level σ)) (waiter : Waiter σ) :
    ∃ w', w'.heap = w.heap ∧ w'.registry.HasOnly P ∧
      (Machine.of behave).Reaches ⟨w, levels, .dispatch ⟨o, pending, version⟩ waiter⟩
        (State.wake w' levels waiter (.ok ())) := by
  induction pending generalizing w with
  | nil => exact ⟨w, rfl, hw, .head (.refl ..)⟩
  | cons head rest ih =>
      obtain ⟨tool, snapshot⟩ := head
      -- the rest of the dispatch, from any world that the present callback may leave behind
      have goes_on : ∀ w₁ : World σ, w₁.heap = w.heap → w₁.registry.HasOnly P →
          ∃ w', w'.heap = w.heap ∧ w'.registry.HasOnly P ∧
            (Machine.of behave).Reaches ⟨w₁, levels, .dispatch ⟨o, rest, version⟩ waiter⟩
              (State.wake w' levels waiter (.ok ())) := by
        intro w₁ hheap hw₁
        obtain ⟨w', hheap', hw', hreach⟩ :=
          ih (fun target ht => hp target (List.mem_cons_of_mem _ ht)) hw₁
        exact ⟨w', hheap'.trans hheap, hw', hreach⟩
      cases hchoose : (Machine.of behave).policy.choose w.registry
          ⟨o, (tool, snapshot) :: rest, version⟩ tool snapshot with
      | none =>
          obtain ⟨w', hheap, hw', hreach⟩ := goes_on w rfl hw
          refine ⟨w', hheap, hw', .head ?_⟩
          rw [advance, advanceDispatch_none rfl hchoose]
          exact hreach
      | some c =>
          by_cases hs : c.shape = o.payload.shape
          · have hPc : P c := of_choose hw (hp _ (List.mem_cons_self ..)) hchoose
            obtain ⟨w₁, action, hheap₁, hw₁, hrun⟩ :=
              hc c hPc hs w (⟨tool, c, ⟨o, rest, version⟩, waiter⟩ :: levels) hw
            -- both answers lead on to the other tools, in registries that may differ
            obtain ⟨w₂, hheap₂, hw₂, hanswer⟩ : ∃ w₂ : World σ, w₂.heap = w.heap ∧
                w₂.registry.HasOnly P ∧ (Machine.of behave).advance
                  ⟨w₁, ⟨tool, c, ⟨o, rest, version⟩, waiter⟩ :: levels,
                    .script (.answer (.ok action))⟩ =
                  ⟨w₂, levels, .dispatch ⟨o, rest, version⟩ waiter⟩ := by
              cases action with
              | proceed => exact ⟨w₁, hheap₁, hw₁, rfl⟩
              | disable =>
                  exact ⟨{ w₁ with registry := w₁.registry.disable tool o.site }, hheap₁,
                    hw₁.disable tool o.site, rfl⟩
            obtain ⟨w', hheap, hw', hreach⟩ := goes_on w₂ hheap₂ hw₂
            refine ⟨w', hheap, hw', .head ?_⟩
            rw [advance, advanceDispatch_some rfl hchoose hs]
            refine hrun.trans (.head ?_)
            rw [hanswer]
            exact hreach
          · obtain ⟨w', hheap, hw', hreach⟩ := goes_on w rfl hw
            refine ⟨w', hheap, hw', .head ?_⟩
            rw [advance, advanceDispatch_mismatch rfl hchoose hs]
            exact hreach

/-- Every report is over at some time if each callback that it may call ends quietly. -/
theorem openDispatch_reaches {o : Occurrence}
    (hc : ∀ c, P c → c.shape = o.payload.shape → EndsQuietly P behave (behave c o.payload))
    {w : World σ} (hw : w.registry.HasOnly P) (levels : List (Level σ)) (waiter : Waiter σ) :
    ∃ w', w'.heap = w.heap ∧ w'.registry.HasOnly P ∧
      (Machine.of behave).Reaches ((Machine.of behave).openDispatch w levels o waiter)
        (State.wake w' levels waiter (.ok ())) := by
  unfold openDispatch
  split
  · refine dispatch_reaches hc ?_ _ hw levels waiter
    rintro ⟨t, c⟩ ht
    exact hw t _ c (Registry.target?_eq_some.1 (Registry.mem_targets.1 ht)).2.2
  · exact ⟨w, rfl, hw, .refl ..⟩

/-- **A quiet script comes to its answer.** -/
theorem endsQuietly_of_quiet {script : Script σ} (h : script.Quiet P behave) :
    EndsQuietly P behave script := by
  induction h with
  | answer action => exact fun w levels hw => ⟨w, action, rfl, hw, .refl ..⟩
  | inspect next ih =>
      intro w levels hw
      obtain ⟨w', action, hheap, hw', hreach⟩ := ih w w levels hw
      exact ⟨w', action, hheap, hw', .head hreach⟩
  | @remember f script next ih =>
      intro w levels hw
      obtain ⟨w', action, hheap, hw', hreach⟩ := ih { w with memory := f w.memory } levels hw
      exact ⟨w', action, hheap, hw', .head hreach⟩
  | @operate op k allowed next ih =>
      intro w levels hw
      obtain ⟨w', action, hheap, hw', hreach⟩ := ih (w.registry.apply op).2
        { w with registry := (w.registry.apply op).1 } levels (hw.apply allowed)
      exact ⟨w', action, hheap, hw', .head hreach⟩
  | @fire o k called next ihc ih =>
      intro w levels hw
      obtain ⟨w₁, hheap₁, hw₁, hover⟩ := openDispatch_reaches ihc hw levels (.script k)
      obtain ⟨w', action, hheap, hw', hreach⟩ := ih w₁ levels hw₁
      exact ⟨w', action, hheap.trans hheap₁, hw', .head (hover.trans hreach)⟩

end Detours

end Machine

/-! ### A thread that nobody hears -/

/-- A thread goes on to its next report, with the heap. -/
def Activity.unheard : Heap × Activity → Heap × Activity
  | (h, .reporting t _ j) => t.proceed h j
  | (h, .finished r) => (h, .finished r)

namespace Activity

theorem unheard_finished {p : Heap × Activity} {h : Heap} {r : Except Exception Value} {k i : ℕ}
    (hk : unheard^[k] p = (h, .finished r)) (hki : k ≤ i) : unheard^[i] p = (h, .finished r) := by
  obtain ⟨l, rfl⟩ := Nat.exists_eq_add_of_le hki
  rw [Nat.add_comm, Function.iterate_add_apply, hk]
  exact Function.iterate_fixed rfl l

/-- A thread is over in one way only. -/
theorem unheard_unique {p : Heap × Activity} {h₁ h₂ : Heap} {r₁ r₂ : Except Exception Value}
    {k i : ℕ} (hk : unheard^[k] p = (h₁, .finished r₁)) (hi : unheard^[i] p = (h₂, .finished r₂)) :
    h₁ = h₂ ∧ r₁ = r₂ := by
  have both : (h₁, Activity.finished r₁) = (h₂, .finished r₂) := by
    rcases Nat.le_total k i with hki | hik
    · rw [← unheard_finished hk hki, hi]
    · rw [← unheard_finished hi hik, hk]
  cases both
  exact ⟨rfl, rfl⟩

end Activity

namespace Machine

/-- **The machine follows the thread that nobody hears**: when that has gone on `k` times, the
machine has come as far in at least `k` steps, with the same heap, or both have come to the end. -/
theorem keeps_pace {P : Callback → Prop} {behave : Callback → Payload → Script σ}
    (hq : QuietCallbacks P behave) (kont : Except Exception Value → Script σ) (k : ℕ)
    {w : World σ} (hw : w.registry.HasOnly P) (a : Activity) :
    (∃ w' r i, Activity.unheard^[i] (w.heap, a) = (w'.heap, .finished r) ∧
        (Machine.of behave).Reaches ⟨w, [], .thread a kont⟩
          ⟨w', [], .thread (.finished r) kont⟩) ∨
      ∃ w' t o j n, k ≤ n ∧ Activity.unheard^[k] (w.heap, a) = (w'.heap, .reporting t o j) ∧
        (Machine.of behave).states ⟨w, [], .thread a kont⟩ n =
          ⟨w', [], .thread (.reporting t o j) kont⟩ := by
  induction k generalizing w a with
  | zero =>
      cases a with
      | finished r => exact Or.inl ⟨w, r, 0, rfl, .refl ..⟩
      | reporting t o j => exact Or.inr ⟨w, t, o, j, 0, Nat.le_refl 0, rfl, rfl⟩
  | succ k ih =>
      cases a with
      | finished r => exact Or.inl ⟨w, r, 0, rfl, .refl ..⟩
      | reporting t o j =>
          have hc : ∀ c, P c → c.shape = o.payload.shape →
              EndsQuietly P behave (behave c o.payload) := fun c hP hs =>
            endsQuietly_of_quiet (hq c o.payload hP hs)
          -- the thread wakes up in a world that may differ from `w`, but not in its heap
          obtain ⟨w₁, hheap, hw₁, d, hd⟩ := openDispatch_reaches hc hw [] (.thread t j kont)
          have hstates : (Machine.of behave).states ⟨w, [], .thread (.reporting t o j) kont⟩
              (d + 1) = ⟨⟨w₁.registry, (t.proceed w.heap j).1, w₁.memory⟩, [],
                .thread (t.proceed w.heap j).2 kont⟩ := by
            rw [← hheap, states_succ']
            exact hd
          rcases ih (w := ⟨w₁.registry, (t.proceed w.heap j).1, w₁.memory⟩) hw₁
              (t.proceed w.heap j).2 with
            ⟨w', r, i, hi, hreach⟩ | ⟨w', t', o', j', n, hkn, hk, hn⟩
          · refine Or.inl ⟨w', r, i + 1, hi, ?_⟩
            exact Reaches.trans ⟨d + 1, hstates⟩ hreach
          · refine Or.inr ⟨w', t', o', j', n + (d + 1), by omega, hk, ?_⟩
            rw [states_add, hstates, hn]

/-! ### Calls from outside -/

/-- A call from outside comes to its end with a result, in a world. -/
def Returns (m : Machine σ) (w : World σ) (limit : ℕ) (callable : Value) (args : List Value)
    (w' : World σ) (r : Except Exception Value) : Prop :=
  m.Reaches (.initial w (.call limit callable args fun _ => .done))
    ⟨w', [], .thread (.finished r) fun _ => .done⟩

theorem states_done (m : Machine σ) (w : World σ) (n : ℕ) :
    m.states ⟨w, [], .script .done⟩ n = ⟨w, [], .script .done⟩ := by
  induction n with
  | zero => rfl
  | succ n ih =>
      rw [states_succ, ih]
      rfl

/-- A thread is over only once. -/
theorem states_after_finished {m : Machine σ} {s : State σ} {w : World σ}
    {r : Except Exception Value} {n i : ℕ}
    (h : m.states s n = ⟨w, [], .thread (.finished r) fun _ => .done⟩) (hi : n < i) :
    m.states s i = ⟨w, [], .script .done⟩ := by
  obtain ⟨l, rfl⟩ := Nat.exists_eq_add_of_lt hi
  have hs : m.states s (n + 1) = ⟨w, [], .script .done⟩ := by
    rw [states_succ, h]
    rfl
  rw [show n + l + 1 = l + (n + 1) by omega, states_add, hs, states_done]

/-- A call comes to one end only. -/
theorem Returns.unique {m : Machine σ} {w w₁ w₂ : World σ} {limit : ℕ} {callable : Value}
    {args : List Value} {r₁ r₂ : Except Exception Value}
    (h₁ : m.Returns w limit callable args w₁ r₁) (h₂ : m.Returns w limit callable args w₂ r₂) :
    w₁ = w₂ ∧ r₁ = r₂ := by
  obtain ⟨n₁, h₁⟩ := h₁
  obtain ⟨n₂, h₂⟩ := h₂
  rcases Nat.lt_trichotomy n₁ n₂ with hlt | rfl | hlt
  · rw [states_after_finished h₁ hlt] at h₂
    cases h₂
  · rw [h₁] at h₂
    cases h₂
    exact ⟨rfl, rfl⟩
  · rw [states_after_finished h₂ hlt] at h₁
    cases h₁

theorem returns_iff {m : Machine σ} {w w' : World σ} {limit : ℕ} {callable : Value}
    {args : List Value} {r : Except Exception Value} :
    m.Returns w limit callable args w' r ↔
      m.Reaches ⟨{ w with heap := (Activity.call w.heap limit callable args).1 }, [],
        .thread (Activity.call w.heap limit callable args).2 fun _ => .done⟩
        ⟨w', [], .thread (.finished r) fun _ => .done⟩ := by
  constructor
  · rintro ⟨n, hn⟩
    cases n with
    | zero => cases hn
    | succ n => exact ⟨n, (m.states_succ' _ n).symm.trans hn⟩
  · exact fun h => .head h

/-- **With quiet callbacks a call comes to the end of the thread that nobody hears**, whatever is
registered. -/
theorem exists_returns_iff {P : Callback → Prop} {behave : Callback → Payload → Script σ}
    (hq : QuietCallbacks P behave) {w : World σ} (hw : w.registry.HasOnly P) (limit : ℕ)
    (callable : Value) (args : List Value) (h : Heap) (r : Except Exception Value) :
    (∃ w', w'.heap = h ∧ (Machine.of behave).Returns w limit callable args w' r) ↔
      ∃ k, Activity.unheard^[k] (Activity.call w.heap limit callable args) = (h, .finished r) := by
  have pace := fun k => keeps_pace hq (fun _ => .done) k
    (w := { w with heap := (Activity.call w.heap limit callable args).1 }) hw
    (Activity.call w.heap limit callable args).2
  constructor
  · rintro ⟨w', rfl, hreturns⟩
    obtain ⟨n, hn⟩ := returns_iff.1 hreturns
    -- after more steps than the call takes, the machine cannot be at a report of the thread
    rcases pace (n + 1) with ⟨w₁, r₁, i, hi, hreach⟩ | ⟨w₁, t, o, j, i, hni, -, hi⟩
    · obtain ⟨rfl, rfl⟩ := hreturns.unique (returns_iff.2 hreach)
      exact ⟨i, hi⟩
    · rw [states_after_finished hn hni] at hi
      cases hi
  · rintro ⟨k, hk⟩
    rcases pace k with ⟨w₁, r₁, i, hi, hreach⟩ | ⟨w₁, t, o, j, n, -, hk', -⟩
    · obtain ⟨hheap, rfl⟩ := Activity.unheard_unique hi hk
      exact ⟨w₁, hheap, returns_iff.2 hreach⟩
    · rw [hk] at hk'
      cases hk'

/-- **Calls are the same whether tools listen or not**, as long as the callbacks that are
registered, and those that they register, are quiet: a call comes to an end with tools exactly if
it does without, and then with the same result and the same heap. -/
theorem call_same_unwatched {P : Callback → Prop} {behave : Callback → Payload → Script σ}
    (hquiet : QuietCallbacks P behave) {w : World σ} (hw : w.registry.HasOnly P) (limit : ℕ)
    (callable : Value) (args : List Value) :
    ((∃ w' r, (Machine.of behave).Returns w limit callable args w' r) ↔
        ∃ w' r, (Machine.of behave).Returns { w with registry := .empty } limit callable args
          w' r) ∧
      ∀ w₁ r₁ w₂ r₂, (Machine.of behave).Returns w limit callable args w₁ r₁ →
        (Machine.of behave).Returns { w with registry := .empty } limit callable args w₂ r₂ →
        r₁ = r₂ ∧ w₁.heap = w₂.heap := by
  have same : ∀ h r, (∃ w', w'.heap = h ∧ (Machine.of behave).Returns w limit callable args w' r) ↔
      ∃ w', w'.heap = h ∧
        (Machine.of behave).Returns { w with registry := .empty } limit callable args w' r :=
    fun h r => (exists_returns_iff hquiet hw limit callable args h r).trans
      (exists_returns_iff hquiet (w := { w with registry := .empty }) (Registry.hasOnly_empty P)
        limit callable args h r).symm
  refine ⟨⟨?_, ?_⟩, ?_⟩
  · rintro ⟨w', r, hreturns⟩
    obtain ⟨w₂, -, h₂⟩ := (same w'.heap r).1 ⟨w', rfl, hreturns⟩
    exact ⟨w₂, r, h₂⟩
  · rintro ⟨w', r, hreturns⟩
    obtain ⟨w₁, -, h₁⟩ := (same w'.heap r).2 ⟨w', rfl, hreturns⟩
    exact ⟨w₁, r, h₁⟩
  · intro w₁ r₁ w₂ r₂ h₁ h₂
    obtain ⟨w₃, hheap, h₃⟩ := (same w₁.heap r₁).1 ⟨w₁, rfl, h₁⟩
    obtain ⟨rfl, rfl⟩ := h₃.unique h₂
    exact ⟨rfl, hheap.symm⟩

def echo : Code where
  name := "echo"
  firstLine := 1
  params := 1
  locals := 1
  isGenerator := false
  rows := #[⟨.loadLocal 0, some 1, true⟩, ⟨.ret, some 1, false⟩]
  labels := #[]
  handlers := []
  consts := #[]

/-- A tool that listens for instructions, in a world where the function is loaded. -/
def watched : World Unit where
  registry := .operated [.claim .debugger "watcher",
    .register .debugger .instruction (some ⟨0, .instruction⟩),
    .setGlobal .debugger (.single .instruction)]
  heap := { Heap.empty with codes := #[echo] }
  memory := ()

/-- Its callback gives the slot back and asks for no further reports. -/
def retire : Callback → Payload → Script Unit := fun _ _ =>
  .operate (.free .debugger) fun _ => .answer (.ok .disable)

/-- The function returns its argument while the tool listens, and so it does without the tool. -/
theorem echo_same_unwatched :
    (∃ w', (Machine.of retire).Returns watched 9 (.function 0) [.int 3] w' (.ok (.int 3))) ∧
      ∃ w', (Machine.of retire).Returns { watched with registry := .empty } 9 (.function 0)
        [.int 3] w' (.ok (.int 3)) := by
  have hquiet : QuietCallbacks (fun _ => True) retire := fun _ _ _ _ =>
    .operate (fun _ _ _ _ => trivial) fun _ => .answer .disable
  have hw : watched.registry.HasOnly fun _ => True := fun _ _ _ _ => trivial
  obtain ⟨w, -, hreturns⟩ := (exists_returns_iff hquiet hw 9 (.function 0) [.int 3]
    (Activity.unheard^[5] (Activity.call watched.heap 9 (.function 0) [.int 3])).1
    (.ok (.int 3))).2 ⟨5, rfl⟩
  obtain ⟨hends, hsame⟩ := call_same_unwatched hquiet hw 9 (.function 0) [.int 3]
  obtain ⟨w', r, hreturns'⟩ := hends.1 ⟨_, _, hreturns⟩
  obtain ⟨rfl, -⟩ := hsame _ _ _ _ hreturns hreturns'
  exact ⟨⟨_, hreturns⟩, w', hreturns'⟩

end Machine

end Tracepoint
