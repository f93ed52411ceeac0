/-
**The exchanges of a call.**

A script calls into the machine, and a thread runs the call.  The thread reports and waits until it
gets an answer, which is a fault if a callback has answered with one; a report with its answer is an
*exchange*.  While the thread waits, callbacks run above it and may make calls of their own, whose
exchanges are made higher up the pile.  The exchanges of a call are therefore those after which the
pile is as high as when the call was made, until the call is over.

What the thread is doing after an exchange depends on the exchange alone.  So a call is a *course*
of exchanges: each of them leads to the report of the next one.  What callbacks do between a report
and its answer shows only in the answer and in the heap.

Main definitions:

* `Tracepoint.Exchange`, `Tracepoint.Activity.Course` — exchanges, and courses of them;
* `Tracepoint.Machine.exchange?` — **the report that the next step answers**;
* `Tracepoint.State.activities`, `Tracepoint.State.activityAt?` — what the threads of a state are
  doing, and the thread at a height;
* `Tracepoint.Machine.Underway`, `Tracepoint.Machine.activity?`, `Tracepoint.Machine.exchanges` —
  a call that is under way, what its thread is doing, and its exchanges.

Main results:

* `Tracepoint.Machine.stride_advance`, `Tracepoint.Machine.advance_of_exchange?` — **threads go on
  by being called or answered**, and not otherwise;
* `Tracepoint.Machine.exists_course` — **every call is a course of its exchanges**;
* `Tracepoint.Machine.completes` — what an exchange of a call leads to.
-/

import Tracepoint.Proofs.Machine.Run
import Tracepoint.Proofs.Thread.Turn

set_option relaxedAutoImplicit false
set_option autoImplicit false

namespace Tracepoint

variable {σ : Type}

/-! ### Exchanges and courses -/

/-- A report of a thread with its answer, and the heap at the moment of the answer. -/
structure Exchange where
  thread : Thread
  occurrence : Occurrence
  juncture : Juncture
  heap : Heap
  answer : Except Exception Unit

namespace Exchange

def event (x : Exchange) : Event := x.occurrence.event

/-- What the thread was doing. -/
def report (x : Exchange) : Activity := .reporting x.thread x.occurrence x.juncture

/-- **What the thread is doing next.** -/
def next (x : Exchange) : Activity := (x.thread.resume x.heap x.juncture x.answer).2

section Telling

variable {x : Exchange} (hr : x.thread.Reports x.occurrence x.juncture)
include hr

/-- What is told at an event. -/
theorem tells_event {e : Event} (he : x.event = e) :
    x.thread.frame.Tells e x.occurrence.payload.detail x.juncture := by
  rw [← he]
  exact hr.tells

/-- What is told at a juncture. -/
theorem tells_juncture {j : Juncture} (hj : x.juncture = j) :
    x.thread.frame.Tells x.event x.occurrence.payload.detail j := by
  rw [← hj]
  exact hr.tells

/-- **What the thread is doing next** is one of the turns. -/
theorem turn_next : x.thread.Turn x.heap x.juncture x.answer x.next :=
  Thread.turn_resume hr.sound hr.tells x.heap x.answer

end Telling

theorem sound_next {x : Exchange} (h : x.report.Sound) : x.next.Sound := by
  have hr : x.thread.Reports x.occurrence x.juncture := h
  exact Activity.sound_resume hr x.heap x.answer

end Exchange

namespace Activity

def isFinished : Activity → Bool
  | .reporting .. => false
  | .finished _ => true

/-- From what a thread is doing to what it is doing later, with the exchanges in between. -/
inductive Course : Activity → List Exchange → Activity → Prop
  | refl (a : Activity) : Course a [] a
  | step {x : Exchange} {xs : List Exchange} {a : Activity} (h : Course x.next xs a) :
      Course x.report (x :: xs) a

theorem Course.snoc {a : Activity} {xs : List Exchange} {x : Exchange}
    (h : Course a xs x.report) : Course a (xs ++ [x]) x.next := by
  generalize hb : x.report = b at h
  induction h with
  | refl a =>
      rw [← hb]
      exact Course.step (x := x) (.refl x.next)
  | @step y ys b _ ih => exact Course.step (x := y) (ih hb)

/-- A course splits at each of its exchanges. -/
theorem Course.of_append {a b : Activity} {x : Exchange} {before after : List Exchange}
    (h : Course a (before ++ x :: after) b) : Course x.next after b := by
  induction before generalizing a with
  | nil =>
      cases h with
      | step h => exact h
  | cons y before ih =>
      cases h with
      | step h => exact ih h

/-- **Threads are sound in the whole course**: so is what a thread is doing, and so are the reports
that it has made. -/
theorem Course.sound {a b : Activity} {xs : List Exchange} (h : Course a xs b) (ha : a.Sound) :
    b.Sound ∧ ∀ x ∈ xs, x.report.Sound := by
  induction h with
  | refl a => exact ⟨ha, by simp⟩
  | @step x xs b _ ih =>
      obtain ⟨hb, hxs⟩ := ih (Exchange.sound_next ha)
      refine ⟨hb, fun y hy => ?_⟩
      rcases List.mem_cons.1 hy with rfl | hy
      · exact ha
      · exact hxs y hy

end Activity

/-! ### The threads of a state -/

/-- What the thread that waits for a dispatch is doing, if it is a thread. -/
def Waiter.activity? (o : Occurrence) : Waiter σ → Option Activity
  | .thread t j _ => some (.reporting t o j)
  | .script _ => none

def Level.activity? (l : Level σ) : Option Activity := l.waiter.activity? l.dispatch.occurrence

def Focus.activity? : Focus σ → Option Activity
  | .thread a _ => some a
  | .dispatch d w => w.activity? d.occurrence
  | .script _ => none

namespace State

/-- What the threads of a state are doing, the innermost first.  All of them but the first wait for
the answer to a report. -/
def activities (s : State σ) : List Activity :=
  s.focus.activity?.toList ++ s.levels.filterMap Level.activity?

/-- A waiter waits for a dispatch as it waits for a callback that the dispatch calls. -/
theorem activities_level (w w' : World σ) (level : Level σ) (levels : List (Level σ))
    (script : Script σ) :
    (⟨w, level :: levels, .script script⟩ : State σ).activities =
      (⟨w', levels, .dispatch level.dispatch level.waiter⟩ : State σ).activities := by
  simp only [activities, Focus.activity?, List.filterMap_cons, Level.activity?]
  cases level.waiter.activity? level.dispatch.occurrence <;> rfl

/-- What the thread at a height of the pile is doing. -/
def activityAt? (s : State σ) (height : ℕ) : Option Activity :=
  match s.levels.reverse[height]? with
  | some level => level.activity?
  | none => s.focus.activity?

end State

namespace Machine

/-- **The report that the next step answers.**  It is answered without a fault if it is not
dispatched or no tool is left, and with a fault if a callback answers with one. -/
def exchange? (m : Machine σ) (s : State σ) : Option Exchange :=
  match s.focus, s.levels with
  | .thread (.reporting t o j) _, _ =>
      if m.policy.opens s.world.registry o.event then none
      else some ⟨t, o, j, s.world.heap, .ok ()⟩
  | .dispatch d (.thread t j _), _ =>
      match d.pending with
      | [] => some ⟨t, d.occurrence, j, s.world.heap, .ok ()⟩
      | _ :: _ => none
  | .script (.answer (.error fault)), ⟨_, _, d, .thread t j _⟩ :: _ =>
      some ⟨t, d.occurrence, j, s.world.heap, .error fault⟩
  | _, _ => none

/-! ### One step -/

/-- **How threads go on**: nothing happens to them except that one that is over may disappear, a
script makes a call, or the report of the innermost thread is answered. -/
inductive Stride (m : Machine σ) (s : State σ) : State σ → Prop
  | aside {s' : State σ} (hx : m.exchange? s = none)
      (hcodes : s'.world.heap.codes = s.world.heap.codes)
      (hgenerators : s'.world.heap.generators = s.world.heap.generators)
      (ha : s.activities = s'.activities ∨ ∃ r, s.activities = .finished r :: s'.activities)
      (ho : s'.occurrence? = none)
      (hiterators : s'.world.heap.iterators = s.world.heap.iterators) : Stride m s s'
  | call {limit : ℕ} {callable : Value} {args : List Value}
      {k : Except Exception Value → Script σ}
      (hf : s.focus = .script (.call limit callable args k)) :
      Stride m s (State.follow s.world s.levels (fun h => Activity.call h limit callable args) k)
  | exchange {x : Exchange} {levels : List (Level σ)} {k : Except Exception Value → Script σ}
      (hx : m.exchange? s = some x) (hh : x.heap = s.world.heap)
      (ha : s.activities = x.report :: levels.filterMap Level.activity?)
      (hl : levels <:+ s.levels) :
      Stride m s (State.follow s.world levels
        (fun h => x.thread.resume h x.juncture x.answer) k)

/-- Threads that nothing happens to were there before. -/
theorem subset_of_aside {as as' : List Activity}
    (h : as = as' ∨ ∃ r, as = .finished r :: as') : as' ⊆ as := by
  rcases h with rfl | ⟨r, rfl⟩
  · exact List.Subset.refl _
  · exact List.subset_cons_self ..

section Stride

variable {m : Machine σ} {w : World σ} {levels : List (Level σ)}

/-- A waiter that wakes up is a thread whose report is answered, or a script. -/
theorem stride_wake {s : State σ} {waiter : Waiter σ} {o : Occurrence}
    {r : Except Exception Unit} (hl : levels <:+ s.levels)
    (hx : m.exchange? s =
      match waiter with
      | .thread t j _ => some ⟨t, o, j, s.world.heap, r⟩
      | .script _ => none)
    (ha : s.activities = (waiter.activity? o).toList ++ levels.filterMap Level.activity?) :
    m.Stride s (State.wake s.world levels waiter r) := by
  cases waiter with
  | script k => exact .aside hx rfl rfl (Or.inl ha) rfl rfl
  | thread t j k => exact .exchange (x := ⟨t, o, j, s.world.heap, r⟩) hx rfl ha hl

theorem stride_openDispatch {focus : Focus σ} {o : Occurrence} {waiter : Waiter σ}
    (hf : focus.activity? = waiter.activity? o)
    (hx : m.exchange? ⟨w, levels, focus⟩ =
      if m.policy.opens w.registry o.event then none
      else match waiter with
        | .thread t j _ => some ⟨t, o, j, w.heap, .ok ()⟩
        | .script _ => none) :
    m.Stride ⟨w, levels, focus⟩ (m.openDispatch w levels o waiter) := by
  have ha : (⟨w, levels, focus⟩ : State σ).activities =
      (waiter.activity? o).toList ++ levels.filterMap Level.activity? := by
    rw [State.activities, hf]
  unfold openDispatch
  split at hx
  · rename_i hopen
    rw [if_pos hopen]
    exact .aside hx rfl rfl (Or.inl ha) rfl rfl
  · rename_i hclosed
    rw [if_neg hclosed]
    exact stride_wake (s := ⟨w, levels, focus⟩) List.suffix_rfl hx ha

theorem stride_advanceDispatch (d : Dispatch) (waiter : Waiter σ) :
    m.Stride ⟨w, levels, .dispatch d waiter⟩ (m.advanceDispatch w levels d waiter) := by
  cases hp : d.pending with
  | nil =>
      rw [advanceDispatch_nil hp]
      refine stride_wake (s := ⟨w, levels, .dispatch d waiter⟩) List.suffix_rfl ?_ rfl
      cases waiter <;> simp [exchange?, hp]
  | cons head rest =>
      obtain ⟨tool, snapshot⟩ := head
      have hx : m.exchange? ⟨w, levels, .dispatch d waiter⟩ = none := by
        cases waiter <;> simp [exchange?, hp]
      have passed : m.Stride ⟨w, levels, .dispatch d waiter⟩
          ⟨w, levels, .dispatch { d with pending := rest } waiter⟩ :=
        .aside hx rfl rfl (Or.inl rfl) rfl rfl
      cases hc : m.policy.choose w.registry d tool snapshot with
      | none =>
          rw [advanceDispatch_none hp hc]
          exact passed
      | some callback =>
          by_cases hs : callback.shape = d.occurrence.payload.shape
          · rw [advanceDispatch_some hp hc hs]
            refine .aside hx rfl rfl (Or.inl ?_) rfl rfl
            exact (State.activities_level w w ⟨tool, callback, _, waiter⟩ ..).symm
          · rw [advanceDispatch_mismatch hp hc hs]
            exact passed

/-- **Every step is one of these.** -/
theorem stride_advance (m : Machine σ) (s : State σ) : m.Stride s (m.advance s) := by
  obtain ⟨w, levels, focus⟩ := s
  cases focus with
  | dispatch d waiter => exact stride_advanceDispatch d waiter
  | thread a k =>
      cases a with
      | finished r => exact .aside rfl rfl rfl (Or.inr ⟨r, rfl⟩) rfl rfl
      | reporting t o j => exact stride_openDispatch rfl rfl
  | script script =>
      cases script with
      | fire o k => exact stride_openDispatch rfl (by split <;> rfl)
      | call limit callable args k => exact .call rfl
      | answer answer =>
          cases levels with
          | nil => exact .aside (by cases answer <;> rfl) rfl rfl (Or.inl rfl) rfl rfl
          | cons level rest =>
              obtain ⟨tool, callback, d, waiter⟩ := level
              cases answer with
              | error fault =>
                  refine stride_wake (s := ⟨w, ⟨tool, callback, d, waiter⟩ :: rest,
                      .script (.answer (.error fault))⟩)
                    (List.suffix_cons ..) ?_ (State.activities_level w w ..)
                  cases waiter <;> rfl
              | ok action =>
                  cases action <;>
                  · refine .aside (by cases waiter <;> rfl) rfl rfl (Or.inl ?_) rfl rfl
                    exact State.activities_level ..
      | _ => exact .aside rfl rfl rfl (Or.inl rfl) rfl rfl

end Stride

/-- The report that is answered is that of the innermost thread. -/
theorem report_mem_of_exchange? {m : Machine σ} {s : State σ} {x : Exchange}
    (hx : m.exchange? s = some x) : x.report ∈ s.activities := by
  have hstride := m.stride_advance s
  generalize m.advance s = s' at hstride
  cases hstride with
  | aside hnone =>
      rw [hx] at hnone
      cases hnone
  | call hf => simp [exchange?, hf] at hx
  | exchange hx' _ ha =>
      rw [hx, Option.some.injEq] at hx'
      rw [hx', ha]
      exact List.mem_cons_self ..

/-- **Who is answered goes on at once**, in the heap as it is. -/
theorem advance_of_exchange? {m : Machine σ} {s : State σ} {x : Exchange}
    (hx : m.exchange? s = some x) :
    x.heap = s.world.heap ∧ ∃ levels k, m.advance s =
      State.follow s.world levels (fun h => x.thread.resume h x.juncture x.answer) k := by
  have hstride := m.stride_advance s
  generalize m.advance s = s' at hstride
  cases hstride with
  | aside hnone =>
      rw [hx] at hnone
      cases hnone
  | call hf => simp [exchange?, hf] at hx
  | exchange hx' hh =>
      obtain rfl := Option.some.inj (hx.symm.trans hx')
      exact ⟨hh, _, _, rfl⟩

end Machine

/-! ### The thread of a call -/

namespace State

/-- **The thread of a call above `base` does `a`**, and the result of the call goes to `k`: it runs,
or it waits for a dispatch, with nothing or a callback above it. -/
inductive Runs (base : List (Level σ)) (k : Except Exception Value → Script σ) :
    Activity → State σ → Prop
  | going (w : World σ) (a : Activity) : Runs base k a ⟨w, base, .thread a k⟩
  | told (w : World σ) (d : Dispatch) (t : Thread) (j : Juncture) :
      Runs base k (.reporting t d.occurrence j) ⟨w, base, .dispatch d (.thread t j k)⟩
  | waiting (w : World σ) (inner : List (Level σ)) (tool : Tool) (callback : Callback) (d : Dispatch)
      (t : Thread) (j : Juncture) (focus : Focus σ) :
      Runs base k (.reporting t d.occurrence j)
        ⟨w, inner ++ ⟨tool, callback, d, .thread t j k⟩ :: base, focus⟩

theorem Runs.activityAt? {base : List (Level σ)} {k : Except Exception Value → Script σ}
    {a : Activity} {s : State σ} (h : s.Runs base k a) : s.activityAt? base.length = some a := by
  cases h <;> simp [State.activityAt?, Focus.activity?, Waiter.activity?, Level.activity?]

theorem runs_of_levels {base inner : List (Level σ)} {k : Except Exception Value → Script σ}
    {tool : Tool} {callback : Callback} {d : Dispatch} {t : Thread} {j : Juncture} {s : State σ}
    (h : s.levels = inner ++ ⟨tool, callback, d, .thread t j k⟩ :: base) :
    s.Runs base k (.reporting t d.occurrence j) ∧ s.levels.length ≠ base.length := by
  obtain ⟨w, levels, focus⟩ := s
  obtain rfl : levels = inner ++ ⟨tool, callback, d, .thread t j k⟩ :: base := h
  refine ⟨.waiting w inner tool callback d t j focus, ?_⟩
  simp only [List.length_append, List.length_cons]
  omega

end State

namespace Machine

/-- A callback is over only by its answer. -/
theorem exists_answer_of_levels {m : Machine σ} {s : State σ} {level : Level σ}
    (h : s.levels = level :: (m.advance s).levels) : ∃ a, s.focus = .script (.answer a) := by
  have kept : ∀ {P : Prop}, (m.advance s).levels = s.levels → P := fun he => by
    rw [he] at h
    exact absurd h.symm (List.cons_ne_self _ _)
  obtain ⟨w, levels, focus⟩ := s
  cases focus with
  | dispatch d waiter =>
      rcases m.advanceDispatch_cases w levels d waiter with
        he | ⟨_, _, _, _, he | ⟨_, _, _, he⟩⟩
      · exact kept (by rw [advance, he, State.levels_wake])
      · exact kept (by rw [advance, he])
      · rw [advance, he] at h
        have hlength := congrArg List.length h
        simp only [List.length_cons] at hlength
        omega
  | thread a k =>
      cases a with
      | finished r => exact kept rfl
      | reporting t o j => exact kept (levels_openDispatch ..)
  | script script =>
      cases script with
      | answer a => exact ⟨a, rfl⟩
      | fire o k => exact kept (levels_openDispatch ..)
      | _ => exact kept rfl

section Runs

variable {m : Machine σ} {base : List (Level σ)} {k : Except Exception Value → Script σ}

/-- **The thread of a call goes on when its report is answered**, and not before. -/
theorem runs_advance {s : State σ} {t : Thread} {o : Occurrence} {j : Juncture}
    (h : s.Runs base k (.reporting t o j)) :
    (∃ x, m.exchange? s = some x ∧ x.report = .reporting t o j ∧ x.heap = s.world.heap ∧
        m.advance s = State.follow s.world base
          (fun h => x.thread.resume h x.juncture x.answer) k) ∨
      ((m.advance s).Runs base k (.reporting t o j) ∧
        (m.exchange? s = none ∨ (m.advance s).levels.length ≠ base.length)) := by
  cases h with
  | going w =>
      show _ ∨ (m.openDispatch w base o (.thread t j k)).Runs base k _ ∧ _
      by_cases hopen : m.policy.opens w.registry o.event = true
      · refine Or.inr ⟨?_, Or.inl (if_pos hopen)⟩
        rw [openDispatch, if_pos hopen]
        exact .told w (w.registry.dispatch o) t j
      · refine Or.inl ⟨⟨t, o, j, w.heap, .ok ()⟩, if_neg hopen, rfl, rfl, ?_⟩
        show m.openDispatch w base o (.thread t j k) = _
        rw [openDispatch, if_neg hopen]
        rfl
  | told w d =>
      show _ ∨ (m.advanceDispatch w base d (.thread t j k)).Runs base k _ ∧ _
      cases hp : d.pending with
      | nil =>
          refine Or.inl ⟨⟨t, d.occurrence, j, w.heap, .ok ()⟩, ?_, rfl, rfl, ?_⟩
          · simp only [exchange?, hp]
          · exact advanceDispatch_nil hp
      | cons head rest =>
          have hx : m.exchange? ⟨w, base, .dispatch d (.thread t j k)⟩ = none := by
            simp only [exchange?, hp]
          refine Or.inr ⟨?_, Or.inl hx⟩
          have on : State.Runs base k (.reporting t d.occurrence j)
              ⟨w, base, .dispatch { d with pending := rest } (.thread t j k)⟩ :=
            .told w { d with pending := rest } t j
          cases hc : m.policy.choose w.registry d head.1 head.2 with
          | none =>
              rw [advanceDispatch_none hp hc]
              exact on
          | some callback =>
              by_cases hs : callback.shape = d.occurrence.payload.shape
              · rw [advanceDispatch_some hp hc hs]
                exact .waiting w [] head.1 callback { d with pending := rest } t j _
              · rw [advanceDispatch_mismatch hp hc hs]
                exact on
  | waiting w inner tool callback d _ _ focus =>
      generalize hs :
        (⟨w, inner ++ ⟨tool, callback, d, .thread t j k⟩ :: base, focus⟩ : State σ) = s
      have hlevels : s.levels = inner ++ ⟨tool, callback, d, .thread t j k⟩ :: base := by rw [← hs]
      have above : ∀ {inner' : List (Level σ)},
          (m.advance s).levels = inner' ++ ⟨tool, callback, d, .thread t j k⟩ :: base →
          (m.advance s).Runs base k (.reporting t d.occurrence j) ∧
            (m.exchange? s = none ∨ (m.advance s).levels.length ≠ base.length) := fun he => by
        obtain ⟨hruns, hlength⟩ := State.runs_of_levels he
        exact ⟨hruns, Or.inr hlength⟩
      rcases m.levels_advance s with he | ⟨level, he⟩ | ⟨level, he, -⟩
      · exact Or.inr (above (he.trans hlevels))
      · cases inner with
        | cons head inner =>
            rw [hlevels, List.cons_append, List.cons.injEq] at he
            exact Or.inr (above he.2.symm)
        | nil =>
            -- the callback that was called for the report is over
            obtain ⟨answer, ha⟩ := exists_answer_of_levels he
            obtain rfl : focus = .script (.answer answer) := by rw [← ha, ← hs]
            subst hs
            cases answer with
            | error fault =>
                exact Or.inl ⟨⟨t, d.occurrence, j, w.heap, .error fault⟩, rfl, rfl, rfl, rfl⟩
            | ok action => cases action <;> exact Or.inr ⟨.told _ d t j, Or.inl rfl⟩
      · have he' : (m.advance s).levels =
            level :: inner ++ ⟨tool, callback, d, .thread t j k⟩ :: base := by
          rw [he, hlevels, List.cons_append]
        exact Or.inr (above he')

end Runs

/-! ### The exchanges of a call -/

/-- What the thread of a call is doing `n` steps after the call was made in the state `s`. -/
def activity? (m : Machine σ) (s : State σ) (n : ℕ) : Option Activity :=
  (m.states s n).activityAt? s.levels.length

/-- The call that is made in the state `s` has not come to a result before step `n`. -/
def Underway (m : Machine σ) (s : State σ) (n : ℕ) : Prop :=
  ∀ i < n, ∀ r, m.activity? s i ≠ some (.finished r)

/-- The exchange that step `i` after a call completes for the call: the pile is then as high as
when the call was made. -/
def exchangeAt? (m : Machine σ) (s : State σ) (i : ℕ) : Option Exchange :=
  if (m.states s (i + 1)).levels.length = s.levels.length then m.exchange? (m.states s i) else none

/-- **The exchanges of a call** in its first `n` steps. -/
def exchanges (m : Machine σ) (s : State σ) (n : ℕ) : List Exchange :=
  (List.range n).filterMap (m.exchangeAt? s)

theorem exchanges_succ (m : Machine σ) (s : State σ) (n : ℕ) :
    m.exchanges s (n + 1) = m.exchanges s n ++ (m.exchangeAt? s n).toList := by
  simp only [exchanges, List.range_succ, List.filterMap_append, List.filterMap_cons,
    List.filterMap_nil]
  cases m.exchangeAt? s n <;> rfl

section Later

variable {m : Machine σ} {s : State σ} {i : ℕ}
  (hl : (m.states s i).levels.length = s.levels.length)
include hl

/-- What the thread of a call does later is what it does from a later state on. -/
theorem activity?_add (n : ℕ) : m.activity? s (i + n) = m.activity? (m.states s i) n := by
  rw [activity?, activity?, Nat.add_comm, states_add, hl]

theorem exchanges_add (n : ℕ) :
    m.exchanges s (i + n) = m.exchanges s i ++ m.exchanges (m.states s i) n := by
  have hstates : ∀ n, m.states s (i + n) = m.states (m.states s i) n := by
    intro n
    rw [Nat.add_comm, states_add]
  induction n with
  | zero => simp [exchanges]
  | succ n ih =>
      have hlater : m.exchangeAt? s (i + n) = m.exchangeAt? (m.states s i) n := by
        rw [exchangeAt?, exchangeAt?, Nat.add_assoc, hstates, hstates, hl]
      rw [← Nat.add_assoc, exchanges_succ, exchanges_succ, ih, hlater, List.append_assoc]

end Later

section Call

variable {m : Machine σ} {s : State σ} {limit : ℕ} {callable : Value} {args : List Value}
  {k : Except Exception Value → Script σ} {n : ℕ}

theorem Underway.of_le {i : ℕ} (h : m.Underway s n) (hi : i ≤ n) : m.Underway s i :=
  fun j hj => h j (by omega)

/-- Whether a call has come to a result can be computed. -/
theorem underway_of_forall
    (h : ∀ i < n, (m.activity? s i).any Activity.isFinished = false) : m.Underway s n := by
  intro i hi r hr
  have hfinished := h i hi
  rw [hr] at hfinished
  cases hfinished

theorem exchangeAt?_zero (hcall : s.focus = .script (.call limit callable args k)) :
    m.exchangeAt? s 0 = none := by
  have hx : m.exchange? s = none := by simp only [exchange?, hcall]
  simp only [exchangeAt?, states_zero, hx, ite_self]

theorem states_one (hcall : s.focus = .script (.call limit callable args k)) :
    m.states s 1 =
      State.follow s.world s.levels (fun h => Activity.call h limit callable args) k := by
  rw [states_succ, states_zero]
  obtain ⟨w, levels, focus⟩ := s
  obtain rfl : focus = .script (.call limit callable args k) := hcall
  rfl

/-- What a call is doing at first. -/
theorem activity?_one (hcall : s.focus = .script (.call limit callable args k)) :
    m.activity? s 1 = some (Activity.call s.world.heap limit callable args).2 := by
  have hruns :
      (m.states s 1).Runs s.levels k (Activity.call s.world.heap limit callable args).2 := by
    rw [states_one hcall]
    exact .going _ _
  exact hruns.activityAt?

/-- The thread of a call that reports goes on with its next exchange. -/
theorem runs_states_succ {i : ℕ} {t : Thread} {o : Occurrence} {j : Juncture}
    (h : (m.states s i).Runs s.levels k (.reporting t o j)) :
    (∃ x, m.exchangeAt? s i = some x ∧ x.report = .reporting t o j ∧
        x.heap = (m.states s i).world.heap ∧
        m.states s (i + 1) = State.follow (m.states s i).world s.levels
          (fun h => x.thread.resume h x.juncture x.answer) k) ∨
      (m.exchangeAt? s i = none ∧ (m.states s (i + 1)).Runs s.levels k (.reporting t o j)) := by
  simp only [exchangeAt?, states_succ]
  rcases m.runs_advance h with ⟨x, hx, hreport, hheap, hstep⟩ | ⟨hruns, hx⟩
  · refine Or.inl ⟨x, ?_, hreport, hheap, hstep⟩
    rw [hstep, State.levels_follow, if_pos rfl, hx]
  · refine Or.inr ⟨?_, hruns⟩
    rcases hx with hx | hlength
    · rw [hx, ite_self]
    · rw [if_neg hlength]

theorem runs_follow {w : World σ} {x : Exchange} (hheap : x.heap = w.heap)
    (base : List (Level σ)) :
    (State.follow w base (fun h => x.thread.resume h x.juncture x.answer) k).Runs base k
      x.next := by
  rw [Exchange.next, hheap]
  exact .going _ _

/-- **Every call is a course of its exchanges.** -/
theorem exists_course (hcall : s.focus = .script (.call limit callable args k))
    (hn : m.Underway s (n + 1)) :
    ∃ a, (m.states s (n + 1)).Runs s.levels k a ∧
      (Activity.call s.world.heap limit callable args).2.Course (m.exchanges s (n + 1)) a := by
  induction n with
  | zero =>
      rw [states_one hcall, exchanges_succ, exchangeAt?_zero hcall]
      exact ⟨_, .going _ _, .refl _⟩
  | succ n ih =>
      obtain ⟨a, hruns, hcourse⟩ := ih (hn.of_le (by omega))
      rw [exchanges_succ]
      cases a with
      | finished r => exact absurd hruns.activityAt? (hn (n + 1) (by omega) r)
      | reporting t o j =>
          rcases runs_states_succ hruns with ⟨x, hx, hreport, hheap, hstep⟩ | ⟨hx, hruns'⟩
          · rw [hx, hstep]
            rw [← hreport] at hcourse
            exact ⟨x.next, runs_follow hheap _, hcourse.snoc⟩
          · rw [hx, Option.toList_none, List.append_nil]
            exact ⟨_, hruns', hcourse⟩

/-- **Step `i` after a call completes an exchange of it**: the thread had made the report, which it
can make, and does the next thing in the heap as it is then. -/
structure Completes (m : Machine σ) (s : State σ) (i : ℕ) (x : Exchange) : Prop where
  reports : x.thread.Reports x.occurrence x.juncture
  report : m.activity? s i = some x.report
  next : m.activity? s (i + 1) = some x.next
  heap : x.heap = (m.states s i).world.heap
  heap_next : (m.states s (i + 1)).world.heap =
    (x.thread.resume x.heap x.juncture x.answer).1

theorem completes (hcall : s.focus = .script (.call limit callable args k))
    (hn : m.Underway s n) {i : ℕ} (hi : i < n) {x : Exchange} (hx : m.exchangeAt? s i = some x) :
    m.Completes s i x := by
  cases i with
  | zero =>
      rw [exchangeAt?_zero hcall] at hx
      cases hx
  | succ i =>
      obtain ⟨a, hruns, hcourse⟩ := exists_course hcall (hn.of_le (by omega : i + 1 ≤ n))
      cases a with
      | finished r => exact absurd hruns.activityAt? (hn (i + 1) hi r)
      | reporting t o j =>
          rcases runs_states_succ hruns with ⟨y, hy, hreport, hheap, hstep⟩ | ⟨hnone, -⟩
          · obtain rfl : y = x := by rwa [hx, Option.some.injEq, eq_comm] at hy
            have hsound := (hcourse.sound (Activity.sound_call ..)).1
            rw [← hreport] at hsound hruns
            refine ⟨hsound, hruns.activityAt?, ?_, hheap, ?_⟩
            · rw [activity?, hstep]
              exact (runs_follow hheap _).activityAt?
            · rw [hstep, hheap]
              rfl
          · rw [hx] at hnone
            cases hnone

/-- What the thread of a call is doing is where the course of its exchanges has led. -/
theorem course_of_activity? (hcall : s.focus = .script (.call limit callable args k))
    (hn : m.Underway s n) {a : Activity} (ha : m.activity? s n = some a) :
    (Activity.call s.world.heap limit callable args).2.Course (m.exchanges s n) a := by
  cases n with
  | zero =>
      rw [activity?, states_zero, State.activityAt?, hcall] at ha
      simp [Focus.activity?] at ha
  | succ n =>
      obtain ⟨b, hruns, hcourse⟩ := exists_course hcall hn
      have hb := hruns.activityAt?
      rw [activity?] at ha
      rw [ha, Option.some.injEq] at hb
      rwa [hb]

end Call

end Machine

end Tracepoint
