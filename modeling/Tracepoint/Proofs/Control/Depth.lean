/-
**The depth of an interpreter.**

An interpreter makes calls, one after another, and counts its activations while it makes one: by one
up when an activation is entered, by one down when it is left.  At a limit it refuses to enter another
one.  The count is all that one call can leave behind for the next one, and it is kept by hand.

It is kept rightly.  At every moment it is the number of activations in progress, the one on top and
those that wait for it; what callbacks call in the meantime is not its business.  So there are never
more of them than the limit, and a call or a loop that seeks to enter one is refused exactly when
there are as many.  Then an exception is raised where the activation was sought, and nothing is
reported of a frame.  When the call is over, with a value or an exception, the count is what it was.
An interpreter that has made any calls is therefore like a new one.

Main definitions:

* `Tracepoint.Activity.inProgress` — the number of activations in progress;
* `Tracepoint.Thread.Seeks` — a call or a loop is about to enter an activation;
* `Tracepoint.Interpreter`, `Tracepoint.Interpreter.after` — interpreters, and how they count;
* `Tracepoint.Machine.KeepsDepth` — **the count is kept** in a call;
* `Tracepoint.Interpreter.Used` — an interpreter that has made calls.

Main results:

* `Tracepoint.Thread.exists_enters_iff`, `Tracepoint.Thread.resume_of_seeks` — **what is sought is
  entered or refused**;
* `Tracepoint.Interpreter.Counts.next`, `Tracepoint.Interpreter.counts_course` — one exchange, and a
  course of them;
* `Tracepoint.Machine.depth_kept` — **the count is kept in every call of every interpreter**.
-/

import Tracepoint.Proofs.Control.Bracket

set_option relaxedAutoImplicit false
set_option autoImplicit false

namespace Tracepoint

variable {σ : Type}

/-! ### Activations that are sought -/

/-- The number of activations in progress: the one that runs and those that wait for it. -/
def Activity.inProgress : Activity → ℕ
  | .reporting t _ _ => t.pile.length
  | .finished _ => 0

/-- There may be at most `limit` of them. -/
def Activity.Under (limit : ℕ) : Activity → Prop
  | .reporting t _ _ => t.limit = limit
  | .finished _ => True

namespace Thread

/-- **A thread is about to enter an activation**: a function is called with the arguments that it
takes, or a loop asks a suspended generator for an item. -/
inductive Seeks (h : Heap) (t : Thread) : Juncture → Prop
  | call {callable : Value} {args : List Value} (hr : h.Runnable callable args) :
      Seeks h t (.called callable args)
  | loop {l : Label} {exit g : ℕ} {rest : List Value} {f : Frame}
      (hi : t.frame.current? = some (.forIter l)) (ht : t.frame.code.target? l = some exit)
      (hs : t.frame.stack = .generator g :: rest) (hg : h.generatorState g = .suspended f) :
      Seeks h t .instruction

variable {h : Heap} {t : Thread} {o : Occurrence} {j : Juncture}

theorem length_pile (t : Thread) : t.pile.length = t.depth := by
  rw [pile, List.length_cons, t.depth_eq]

/-- **What is sought is entered** exactly if there is room. -/
theorem exists_enters_iff (hr : t.Reports o j) :
    (∃ callee, t.Enters h j callee) ↔ t.Seeks h j ∧ t.hasRoom = true := by
  constructor
  · rintro ⟨callee, he⟩
    cases he with
    | call hroom _ hc hg hf => exact ⟨.call ⟨_, _, rfl, hc, (Frame.of_start hf).1, hg⟩, hroom⟩
    | loop hroom hi ht hs hg => exact ⟨.loop hi ht hs hg, hroom⟩
  · rintro ⟨hseeks, hroom⟩
    cases hseeks with
    | call hrunnable =>
        obtain ⟨n, hi⟩ := hr.tells.at_called
        exact (enters_called_iff hi _ _).2 ⟨hrunnable, hroom⟩
    | loop hi ht hs hg => exact ⟨_, .loop hroom hi ht hs hg⟩

/-- **What is sought is refused** if there is none: an exception is raised where it was sought. -/
theorem resume_of_seeks (hs : t.Seeks h j) (hroom : t.hasRoom = false) :
    (t.resume h j (.ok ())).2 = t.raise .recursionLimit := by
  cases hs with
  | call hr =>
      obtain ⟨a, code, rfl, hc, hargs, hg⟩ := hr
      obtain ⟨f, hf⟩ := Frame.exists_start (a := a) hargs
      simp only [resume, proceed, makeCall, hc, hf, hg, hroom]
      rfl
  | @loop l exit g rest f hi ht hs hg =>
      have hcurrent : t.frame.code.instruction? t.frame.pc = some (.forIter l) := hi
      simp only [resume, proceed, executeCurrent, hcurrent, execute, ht, hs, advanceIterator, hg,
        hroom]
      rfl

/-- An entry is no exception. -/
theorem enter_ne_raise (t t' : Thread) (e : Exception) : t.enter ≠ t'.raise e := by
  intro heq
  have hopens := t.opens_enter
  rw [heq] at hopens
  cases hopens

end Thread

/-- An exchange lets a thread go on that is about to enter an activation. -/
def Exchange.Seeks (x : Exchange) : Prop := x.answer = .ok () ∧ x.thread.Seeks x.heap x.juncture

namespace Exchange

variable {x : Exchange} (hr : x.thread.Reports x.occurrence x.juncture)
include hr

theorem opens_next_iff_seeks :
    x.next.opens = true ↔ x.Seeks ∧ x.thread.hasRoom = true := by
  rw [opens_next_iff hr, Thread.exists_enters_iff hr, Seeks, and_assoc]

/-- **It is refused exactly if there is no room.** -/
theorem next_eq_raise_iff (hs : x.Seeks) :
    x.next = x.thread.raise .recursionLimit ↔ x.thread.hasRoom = false := by
  obtain ⟨hanswer, hseeks⟩ := hs
  constructor
  · intro hraise
    rw [← Bool.not_eq_true]
    intro hroom
    obtain ⟨callee, he⟩ := (Thread.exists_enters_iff hr).2 ⟨hseeks, hroom⟩
    rw [next, hanswer, Thread.resume_of_enters he] at hraise
    exact Thread.enter_ne_raise _ _ _ hraise
  · intro hroom
    rw [next, hanswer, Thread.resume_of_seeks hseeks hroom]

end Exchange

/-! ### Interpreters -/

/-- What an interpreter keeps from one call to the next. -/
structure Interpreter where
  limit : ℕ
  /-- The number of activations in progress, as it is counted. -/
  depth : ℕ

namespace Interpreter

def fresh (limit : ℕ) : Interpreter := ⟨limit, 0⟩

/-- It counts an activation that is entered. -/
def entering (vm : Interpreter) (a : Activity) : Interpreter :=
  if a.opens then { vm with depth := vm.depth + 1 } else vm

/-- It counts an activation that is left. -/
def leaving (vm : Interpreter) (x : Exchange) : Interpreter :=
  if x.closes then { vm with depth := vm.depth - 1 } else vm

/-- **How it counts in an exchange.** -/
def after (vm : Interpreter) (x : Exchange) : Interpreter := (vm.leaving x).entering x.next

/-- **It makes a call**, in which there may be as many activations as it has room for. -/
def call (vm : Interpreter) (callable : Value) (args : List Value)
    (k : Except Exception Value → Script σ) : Script σ :=
  .call (vm.limit - vm.depth) callable args k

/-- **The count is right**: in a call that `vm` has made, the interpreter is `vm'` when its thread
does `a`. -/
structure Counts (vm vm' : Interpreter) (a : Activity) : Prop where
  limit : vm'.limit = vm.limit
  depth : vm'.depth = vm.depth + a.inProgress
  under : a.Under (vm.limit - vm.depth)
  within : a.inProgress ≤ vm.limit - vm.depth

variable {vm vm' : Interpreter}

theorem counts_finished (vm : Interpreter) (r : Except Exception Value) :
    vm.Counts vm (.finished r) :=
  ⟨rfl, rfl, trivial, Nat.zero_le _⟩

theorem counts_continues {t : Thread} {a : Activity} (hc : t.Continues a)
    (hlimit : vm'.limit = vm.limit) (hdepth : vm'.depth = vm.depth + t.pile.length)
    (hunder : t.limit = vm.limit - vm.depth) (hwithin : t.pile.length ≤ vm.limit - vm.depth) :
    vm.Counts vm' a := by
  obtain ⟨t', e, d, j, hm, -, -, rfl⟩ := hc
  have hpile : t'.pile.length = t.pile.length := by
    rw [Thread.pile, Thread.pile, List.length_cons, List.length_cons, hm.below]
  rw [← hpile] at hdepth hwithin
  exact ⟨hlimit, hdepth, hm.limit.trans hunder, hwithin⟩

/-- **One exchange**: the count stays right. -/
theorem Counts.next {x : Exchange} (hc : vm.Counts vm' x.report)
    (hr : x.thread.Reports x.occurrence x.juncture) : vm.Counts (vm'.after x) x.next := by
  have hlimit := hc.limit
  have hdepth : vm'.depth = vm.depth + x.thread.pile.length := hc.depth
  have hunder : x.thread.limit = vm.limit - vm.depth := hc.under
  have hwithin : x.thread.pile.length ≤ vm.limit - vm.depth := hc.within
  have hcloses := Exchange.closes_eq hr
  have hshift := (Exchange.turn_next hr).shift
  unfold after entering leaving
  generalize x.next = a at hshift
  cases hshift with
  | stays hj hgoes =>
      rw [hcloses, hj, hgoes.opens_eq_false]
      exact counts_continues hgoes hlimit hdepth hunder hwithin
  | @enters callee hanswer he =>
      rw [hcloses, hanswer, he.closes_eq_false, Thread.opens_enter]
      have hroom : x.thread.depth < x.thread.limit := by
        have hboth := (Thread.exists_enters_iff hr).1 ⟨callee, he⟩
        exact of_decide_eq_true hboth.2
      have hlength := x.thread.length_pile
      refine ⟨hlimit, ?_, ?_, ?_⟩
      · show vm'.depth + 1 = vm.depth + (x.thread.pile.length + 1)
        omega
      · exact hunder
      · show x.thread.pile.length + 1 ≤ vm.limit - vm.depth
        omega
  | leaves hj hp hgoes =>
      rw [hcloses, hj, hgoes.opens_eq_false]
      obtain ⟨hbelow, hsame⟩ := Thread.pile_of_pop? hp
      rw [Thread.pile, List.length_cons, hbelow] at hdepth hwithin
      refine counts_continues hgoes hlimit ?_ (hsame.trans hunder) (by omega)
      show vm'.depth - 1 = _
      omega
  | ends hj hp r =>
      rw [hcloses, hj]
      rw [Thread.pile, List.length_cons, Thread.below_of_pop?_eq_none hp] at hdepth
      refine ⟨hlimit, ?_, trivial, Nat.zero_le _⟩
      show vm'.depth - 1 = vm.depth + 0
      simp only [List.length_nil] at hdepth
      omega

/-- **A call begins with a right count.** -/
theorem counts_call (vm : Interpreter) (h : Heap) (callable : Value) (args : List Value) :
    vm.Counts (vm.entering (Activity.call h (vm.limit - vm.depth) callable args).2)
      (Activity.call h (vm.limit - vm.depth) callable args).2 := by
  rcases Activity.call_cases h (vm.limit - vm.depth) callable args with
    ⟨r, hr, -⟩ | ⟨_, _, f, -, -, -, -, hroom, henter⟩
  · rw [hr]
    exact vm.counts_finished r
  · rw [henter, entering, Thread.opens_enter]
    exact ⟨rfl, rfl, rfl, hroom⟩

/-- **A course of exchanges**: the count stays right. -/
theorem counts_course {a b : Activity} {xs : List Exchange} (h : a.Course xs b) (ha : a.Sound)
    (hc : vm.Counts vm' a) : vm.Counts (xs.foldl after vm') b := by
  induction h generalizing vm' with
  | refl a => exact hc
  | @step x xs b _ ih => exact ih (Exchange.sound_next ha) (hc.next ha)

end Interpreter

/-- A call from outside that could run a code unit is refused if there is no room. -/
theorem Activity.call_eq_finished {h : Heap} {callable : Value} {args : List Value}
    (hr : h.Runnable callable args) :
    (call h 0 callable args).2 = .finished (.error .recursionLimit) := by
  obtain ⟨a, code, rfl, hc, hargs, hg⟩ := hr
  obtain ⟨f, hf⟩ := Frame.exists_start (a := a) hargs
  simp only [call, hc, hf, hg]
  rfl

/-! ### Calls -/

namespace Machine

/-- **The interpreter `n` steps after it has made a call** in the state `s`. -/
def interpreterAt (m : Machine σ) (vm : Interpreter) (s : State σ) (n : ℕ) : Interpreter :=
  (m.exchanges s n).foldl Interpreter.after ((m.activity? s 1).elim vm vm.entering)

/-- **The count is kept** in the first `n` steps of a call that the interpreter has made. -/
structure KeepsDepth (m : Machine σ) (vm : Interpreter) (s : State σ) (n : ℕ) : Prop where
  /-- It is the number of activations in progress, and never more than the limit. -/
  counted : ∀ i, 0 < i → i ≤ n → ∃ a, m.activity? s i = some a ∧
    (m.interpreterAt vm s i).depth = vm.depth + a.inProgress ∧
      vm.depth + a.inProgress ≤ vm.limit
  /-- What is sought is entered exactly if there are fewer of them than the limit, and nothing else
  is entered. -/
  entered : ∀ i < n, ∀ x, m.exchangeAt? s i = some x →
    m.activity? s (i + 1) = some x.next ∧
      (x.next.opens = true ↔ x.Seeks ∧ (m.interpreterAt vm s i).depth < vm.limit)
  /-- It is refused exactly if there are as many: an exception is raised where it was sought. -/
  refused : ∀ i < n, ∀ x, m.exchangeAt? s i = some x → x.Seeks →
    (x.next = x.thread.raise .recursionLimit ↔ (m.interpreterAt vm s i).depth = vm.limit)
  /-- So is the call itself. -/
  begun : ∀ callable args k, s.focus = .script (vm.call callable args k) →
    s.world.heap.Runnable callable args → ∃ a, m.activity? s 1 = some a ∧
      (a.opens = true ↔ vm.depth < vm.limit) ∧
      (a = .finished (.error .recursionLimit) ↔ vm.depth = vm.limit)
  /-- When the call is over, the count is what it was. -/
  restored : ∀ r, m.activity? s n = some (.finished r) → m.interpreterAt vm s n = vm

section Call

variable {m : Machine σ} {s : State σ} {vm : Interpreter} {callable : Value} {args : List Value}
  {k : Except Exception Value → Script σ} {n : ℕ}

theorem counts_activity? (hcall : s.focus = .script (vm.call callable args k))
    (hn : m.Underway s n) {a : Activity} (ha : m.activity? s n = some a) :
    vm.Counts (m.interpreterAt vm s n) a := by
  rw [interpreterAt, activity?_one hcall, Option.elim_some]
  exact Interpreter.counts_course (course_of_activity? hcall hn ha) (Activity.sound_call ..)
    (vm.counts_call ..)

theorem keepsDepth (hvm : vm.depth ≤ vm.limit)
    (hcall : s.focus = .script (vm.call callable args k)) (hn : m.Underway s n) :
    m.KeepsDepth vm s n := by
  have room : ∀ i < n, ∀ x, m.exchangeAt? s i = some x → m.Completes s i x ∧
      (x.thread.hasRoom = true ↔ (m.interpreterAt vm s i).depth < vm.limit) ∧
      (m.interpreterAt vm s i).depth ≤ vm.limit := by
    intro i hi x hx
    have hcompletes := completes hcall hn hi hx
    have hcounts := counts_activity? hcall (hn.of_le (by omega)) hcompletes.report
    have hunder : x.thread.limit = vm.limit - vm.depth := hcounts.under
    have hdepth : (m.interpreterAt vm s i).depth = vm.depth + x.thread.pile.length := hcounts.depth
    have hwithin : x.thread.pile.length ≤ vm.limit - vm.depth := hcounts.within
    have hlength := x.thread.length_pile
    refine ⟨hcompletes, ?_, by omega⟩
    rw [Thread.hasRoom, decide_eq_true_iff]
    omega
  constructor
  · intro i hi hle
    obtain ⟨i, rfl⟩ := Nat.exists_eq_succ_of_ne_zero (by omega : i ≠ 0)
    obtain ⟨a, hruns, -⟩ := exists_course hcall (hn.of_le hle)
    have ha : m.activity? s (i + 1) = some a := hruns.activityAt?
    have hcounts := counts_activity? hcall (hn.of_le hle) ha
    have hwithin := hcounts.within
    exact ⟨a, ha, hcounts.depth, by omega⟩
  · intro i hi x hx
    obtain ⟨hcompletes, hroom, -⟩ := room i hi x hx
    rw [← hroom]
    exact ⟨hcompletes.next, Exchange.opens_next_iff_seeks hcompletes.reports⟩
  · intro i hi x hx hseeks
    obtain ⟨hcompletes, hroom, hle⟩ := room i hi x hx
    rw [Exchange.next_eq_raise_iff hcompletes.reports hseeks, ← Bool.not_eq_true, hroom]
    omega
  · intro callable args k hcall hrunnable
    refine ⟨_, activity?_one hcall, ?_, ?_⟩
    · rw [Activity.opens_call_iff]
      constructor
      · intro hboth
        omega
      · intro hlt
        exact ⟨hrunnable, by omega⟩
    · constructor
      · intro hrefused
        have hopens := Activity.opens_call_iff s.world.heap (vm.limit - vm.depth) callable args
        rw [hrefused] at hopens
        have hnone : ¬0 < vm.limit - vm.depth := fun hlt => by
          cases hopens.2 ⟨hrunnable, hlt⟩
        omega
      · intro heq
        rw [heq, Nat.sub_self]
        exact Activity.call_eq_finished hrunnable
  · intro r hr
    have hcounts := counts_activity? hcall hn hr
    have hlimit := hcounts.limit
    have hdepth : (m.interpreterAt vm s n).depth = vm.depth + 0 := hcounts.depth
    generalize m.interpreterAt vm s n = vm' at hlimit hdepth
    cases vm
    cases vm'
    simp_all

end Call

end Machine

/-! ### One call after another -/

/-- **An interpreter that has made calls** before step `i` of a run, one after another, since it was
new: each of them has come to a value or to an exception. -/
inductive Interpreter.Used (m : Machine σ) (s : State σ) (limit : ℕ) : Interpreter → ℕ → Prop
  | fresh : Used m s limit (fresh limit) 0
  | call {vm vm' : Interpreter} {i j n : ℕ} {callable : Value} {args : List Value}
      {k : Except Exception Value → Script σ} {r : Except Exception Value}
      (hused : Used m s limit vm i) (hij : i ≤ j)
      (hcall : (m.states s j).focus = .script (vm.call callable args k))
      (hn : m.Underway (m.states s j) n)
      (hr : m.activity? (m.states s j) n = some (.finished r))
      (hvm : m.interpreterAt vm (m.states s j) n = vm') : Used m s limit vm' (j + n)

/-- Whatever calls it has made, an interpreter is like a new one. -/
theorem Interpreter.Used.eq_fresh {m : Machine σ} {s : State σ} {limit i : ℕ} {vm : Interpreter}
    (hused : vm.Used m s limit i) : vm = .fresh limit := by
  induction hused with
  | fresh => rfl
  | call _ _ hcall hn hr hvm ih =>
      subst ih
      rw [← hvm]
      exact (Machine.keepsDepth (Nat.zero_le _) hcall hn).restored _ hr

namespace Machine

/-- **The count is kept in every call of every interpreter**, whatever the code and the callbacks
do; and whatever calls it has made, an interpreter makes the next one like a new one. -/
theorem depth_kept (m : Machine σ) {s : State σ} {limit i : ℕ} {vm : Interpreter}
    (hused : vm.Used m s limit i) :
    vm = .fresh limit ∧ ∀ j ≥ i, ∀ (callable : Value) (args : List Value)
      (k : Except Exception Value → Script σ) (n : ℕ),
      (m.states s j).focus = .script (vm.call callable args k) →
        m.Underway (m.states s j) n → m.KeepsDepth vm (m.states s j) n := by
  have hfresh := hused.eq_fresh
  refine ⟨hfresh, fun j _ callable args k n hcall hn => keepsDepth ?_ hcall hn⟩
  rw [hfresh]
  exact Nat.zero_le _

/-- A function that calls itself, and returns the exception if that fails. -/
def plunge : Code where
  name := "plunge"
  firstLine := 1
  params := 0
  locals := 0
  isGenerator := false
  rows := #[⟨.loadConst 0, none, false⟩, ⟨.call 0, none, false⟩, ⟨.ret, none, false⟩,
    ⟨.ret, none, false⟩]
  labels := #[]
  handlers := [⟨0, 2, 3, 0⟩]
  consts := #[.function 0]

/-- It is called twice, with room for three activations. -/
def plunging : State Unit :=
  .initial ⟨.empty, { Heap.empty with codes := #[plunge] }, ()⟩
    (.call 3 (.function 0) [] fun _ => .call 3 (.function 0) [] fun _ => .done)

/-- The second call comes as far as the first one, which has ended well: in both the third activation
asks for a fourth one. -/
theorem plunging_depth_kept : (Interpreter.fresh 3).Used objecting plunging 3 21 ∧
    ∃ x, objecting.exchangeAt? (objecting.states plunging 22) 12 = some x ∧ x.Seeks ∧
      x.next = x.thread.raise .recursionLimit ∧
      objecting.interpreterAt (.fresh 3) (objecting.states plunging 22) 21 = .fresh 3 := by
  have hfirst : objecting.Underway plunging 21 := underway_of_forall (by decide +kernel)
  have hused : (Interpreter.fresh 3).Used objecting plunging 3 21 :=
    .call .fresh (Nat.zero_le 0) rfl hfirst rfl rfl
  have hsecond : objecting.Underway (objecting.states plunging 22) 21 :=
    underway_of_forall (by decide +kernel)
  obtain ⟨-, hcalls⟩ := depth_kept objecting hused
  have hkept := hcalls 22 (by omega) (.function 0) [] _ 21 rfl hsecond
  obtain ⟨x, hx, hseeks⟩ : ∃ x,
      objecting.exchangeAt? (objecting.states plunging 22) 12 = some x ∧ x.Seeks :=
    ⟨_, rfl, rfl, .call ⟨0, plunge, rfl, rfl, rfl, rfl⟩⟩
  exact ⟨hused, x, hx, hseeks, (hkept.refused 12 (by omega) x hx hseeks).2 rfl, hkept.restored _ rfl⟩

end Machine

end Tracepoint
