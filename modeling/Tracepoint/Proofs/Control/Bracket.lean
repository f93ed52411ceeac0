/-
**Frame events are brackets.**

An activation is entered with a start or a resumption, and left with a return or a yield that no
callback objects to, or with an exception that leaves the frame.  The exchanges of a call nest
accordingly: what is left is always what was entered last, and whatever is reported in between
belongs to the activation that was entered last.  When the call is over, all activations have been
left.

A fault at a return or a yield keeps the activation, which meets the fault as an exception; so the
events alone do not tell whether an activation is left, but the exchanges do.

Main definitions:

* `Tracepoint.Exchange.opens`, `Tracepoint.Exchange.closes`, `Tracepoint.Exchange.bracket` —
  entering and leaving, and the activations that are open;
* `Tracepoint.Activity.Matches` — the open activations are those of the thread;
* `Tracepoint.Machine.WellBracketed` — the exchanges of a call nest.

Main results:

* `Tracepoint.Exchange.matches_next`, `Tracepoint.Activity.Course.exists_bracket` — one exchange,
  and a course of them;
* `Tracepoint.Machine.frame_events_bracketed` — **the frame events of every call are well
  bracketed**.
-/

import Tracepoint.Proofs.Control.Entry

set_option relaxedAutoImplicit false
set_option autoImplicit false

namespace Tracepoint

variable {σ : Type}

/-! ### Opening and closing -/

namespace Exchange

/-- An activation has been entered. -/
def opens (x : Exchange) : Bool := x.event.opensFrame

/-- An activation is left: a return or a yield was reported without a fault, or an exception was
reported to leave the frame. -/
def closes (x : Exchange) : Bool :=
  match x.event, x.answer with
  | .frameReturn, .ok () | .frameYield, .ok () | .frameUnwind, _ => true
  | _, _ => false

/-- Two exchanges belong to one activation, as far as their reports and the places of the
activations tell: it is the same code, the same generator if it is one's, and the same depth. -/
def SameActivation (x y : Exchange) : Prop :=
  x.occurrence.payload.code = y.occurrence.payload.code ∧
    x.thread.top.generator = y.thread.top.generator ∧ x.thread.depth = y.thread.depth

instance (x y : Exchange) : Decidable (x.SameActivation y) :=
  inferInstanceAs (Decidable (_ ∧ _))

/-- **The open activations after an exchange**, each by the exchange that opened it, the latest
first.  What opens none has to belong to the latest one. -/
def bracket (opened : List Exchange) (x : Exchange) : Option (List Exchange) :=
  if x.opens then some (x :: opened)
  else
    match opened with
    | [] => none
    | o :: rest =>
        if o.SameActivation x then some (if x.closes then rest else opened) else none

theorem bracket_of_opens {x : Exchange} (h : x.opens = true) (opened : List Exchange) :
    bracket opened x = some (x :: opened) := if_pos h

theorem bracket_of_not_opens {o x : Exchange} (h : ¬ x.opens = true)
    (hc : o.SameActivation x) (rest : List Exchange) :
    bracket (o :: rest) x = some (if x.closes then rest else o :: rest) := by
  simp only [bracket, if_neg h, if_pos hc]

theorem closes_eq_false_of_opens {x : Exchange} (h : x.opens = true) : x.closes = false := by
  unfold opens Event.opensFrame at h
  unfold closes
  split at h <;> simp_all

/-- There are as many openings as closings and open activations. -/
theorem length_bracket {xs opened opened' : List Exchange}
    (h : xs.foldlM bracket opened = some opened') :
    opened.length + xs.countP opens = opened'.length + xs.countP closes := by
  induction xs generalizing opened with
  | nil =>
      obtain rfl : opened = opened' := by simpa using h
      rfl
  | cons x xs ih =>
      rw [List.foldlM_cons] at h
      cases hx : bracket opened x with
      | none =>
          rw [hx] at h
          cases h
      | some mid =>
          rw [hx] at h
          have hrest := ih h
          rw [List.countP_cons, List.countP_cons]
          unfold bracket at hx
          split at hx
          · rename_i hopens
            cases hx
            rw [hopens, closes_eq_false_of_opens hopens]
            simp only [List.length_cons] at hrest
            simp only [if_true, Bool.false_eq_true, if_false]
            omega
          · rename_i hopens
            rw [Bool.not_eq_true] at hopens
            rw [hopens]
            cases opened with
            | nil => cases hx
            | cons o rest =>
                simp only [Option.ite_none_right_eq_some, Option.some.injEq] at hx
                obtain ⟨-, rfl⟩ := hx
                cases hcloses : x.closes <;>
                  simp only [hcloses, if_true, Bool.false_eq_true, if_false,
                    List.length_cons] at hrest ⊢ <;> omega

/-- What is nested stays nested up to any exchange. -/
theorem isSome_of_prefix {xs ys opened : List Exchange} (hp : ys <+: xs)
    (h : (xs.foldlM bracket opened).isSome = true) : (ys.foldlM bracket opened).isSome = true := by
  obtain ⟨zs, rfl⟩ := hp
  rw [List.foldlM_append] at h
  cases hy : ys.foldlM bracket opened with
  | none =>
      rw [hy] at h
      cases h
  | some mid => rfl

/-! ### Open brackets are waiting activations -/

/-- The exchange reported that the activation was entered: it is the same code, and the same
generator if it is one's. -/
structure Opened (x : Exchange) (a : Activation) : Prop where
  opens : x.opens = true
  generator : x.thread.top.generator = a.generator
  address : x.thread.frame.address = a.frame.address
  code : x.thread.frame.code = a.frame.code
  unit : x.occurrence.payload.unit = .loaded a.frame.address a.frame.code

/-- **Exchanges have opened the activations of a pile**, in order and each at its depth. -/
inductive Piled : List Exchange → List Activation → Prop
  | nil : Piled [] []
  | cons {x : Exchange} {a : Activation} {opened : List Exchange} {pile : List Activation}
      (hx : x.Opened a) (hd : x.thread.depth = pile.length + 1) (h : Piled opened pile) :
      Piled (x :: opened) (a :: pile)

end Exchange

/-- **The open activations are those of the thread**; one that is just being reported to be entered
counts as soon as the report is answered. -/
def Activity.Matches (opened : List Exchange) : Activity → Prop
  | .reporting t o _ => Exchange.Piled opened (if o.event.opensFrame then t.below else t.pile)
  | .finished _ => opened = []

namespace Exchange

/-- The answers that close an activation are those that take it off its thread. -/
theorem closes_eq {x : Exchange} (h : x.thread.Reports x.occurrence x.juncture) :
    x.closes = x.juncture.closes x.answer := by
  obtain ⟨t, ⟨e, unit, offset, d⟩, j, heap, answer⟩ := x
  have ht : t.frame.Tells e d j := h.tells
  unfold closes event
  cases answer <;> cases ht <;> rfl

theorem Opened.moves {x : Exchange} {t t' : Thread} (h : x.Opened t.top) (hm : t.Moves t') :
    x.Opened t'.top := by
  have hcode : t'.top.frame.code = t.top.frame.code := hm.frame.code
  have haddress : t'.top.frame.address = t.top.frame.address := hm.frame.address
  exact ⟨h.opens, h.generator.trans hm.generator.symm, h.address.trans haddress.symm,
    h.code.trans hcode.symm, by rw [h.unit, haddress, hcode]⟩

theorem matches_continues {opened : List Exchange} {t : Thread} {a : Activity}
    (h : Piled opened t.pile) (hc : t.Continues a) : a.Matches opened := by
  have hopens := hc.opens_eq_false
  obtain ⟨t', e, d, j, hm, -, -, rfl⟩ := hc
  replace hopens : e.opensFrame = false := hopens
  show Piled opened (if e.opensFrame = true then t'.below else t'.pile)
  rw [hopens, if_neg Bool.false_ne_true, Thread.pile, hm.below]
  cases h with
  | cons hx hd hrest => exact .cons (hx.moves hm) hd hrest

theorem matches_enter {opened : List Exchange} {t : Thread}
    (hf : Piled opened t.pile) (callee : Activation) :
    (t.push callee).enter.Matches opened := by
  have hopens := (Thread.opensFrame_iff (Thread.tells_enter (t.push callee))).2 rfl
  show Piled opened (if Event.opensFrame _ = true then t.pile else _)
  rw [if_pos hopens]
  exact hf

/-- Whether or not an exchange opens an activation, those of the thread are open when it is made. -/
theorem exists_opened {x : Exchange} {opened : List Exchange}
    (hr : x.thread.Reports x.occurrence x.juncture) (hm : x.report.Matches opened) :
    ∃ o rest, Piled (o :: rest) x.thread.pile ∧
      bracket opened x = some (if x.closes then rest else o :: rest) := by
  have hunit : x.occurrence.payload.unit =
      .loaded x.thread.top.frame.address x.thread.top.frame.code := hr.unit
  have hm' : Piled opened (if x.opens = true then x.thread.below else x.thread.pile) := hm
  by_cases hopens : x.opens = true
  · rw [if_pos hopens] at hm'
    have hx : x.Opened x.thread.top := ⟨hopens, rfl, rfl, rfl, hunit⟩
    refine ⟨x, opened, .cons hx x.thread.depth_eq hm', ?_⟩
    rw [bracket_of_opens hopens, closes_eq_false_of_opens hopens]
    rfl
  · rw [if_neg hopens, Thread.pile] at hm'
    cases hm' with
    | @cons o _ rest _ ho hd hrest =>
        have hcode : o.occurrence.payload.code = x.occurrence.payload.code := by
          rw [Payload.code, Payload.code, ho.unit, hunit]
        have hsame : o.SameActivation x :=
          ⟨hcode, ho.generator, hd.trans x.thread.depth_eq.symm⟩
        exact ⟨o, rest, .cons ho hd hrest, bracket_of_not_opens hopens hsame rest⟩

/-- **One exchange**: it belongs to the activation on top, and the open activations after it are
those of the thread as it goes on. -/
theorem matches_next {x : Exchange} {opened : List Exchange}
    (hr : x.thread.Reports x.occurrence x.juncture) (hm : x.report.Matches opened) :
    ∃ opened', bracket opened x = some opened' ∧ x.next.Matches opened' := by
  obtain ⟨o, rest, hpiled, hbracket⟩ := exists_opened hr hm
  refine ⟨_, hbracket, ?_⟩
  have hrest : Piled rest x.thread.below := by
    cases hpiled with
    | cons _ _ hrest => exact hrest
  have hshift := (turn_next hr).shift
  have hcloses := closes_eq hr
  generalize x.next = a at hshift
  cases hshift with
  | stays hj hc =>
      rw [hcloses, hj]
      exact matches_continues hpiled hc
  | enters hanswer he =>
      rw [hcloses, hanswer, he.closes_eq_false]
      exact matches_enter hpiled _
  | leaves hj hp hc =>
      rw [hcloses, hj]
      rw [(Thread.pile_of_pop? hp).1] at hrest
      exact matches_continues hrest hc
  | ends hj hp r =>
      rw [hcloses, hj]
      rw [Thread.below_of_pop?_eq_none hp] at hrest
      cases hrest
      rfl

end Exchange

namespace Activity

/-- **A course of exchanges nests**, and what is open after it is what waits or runs in the
thread. -/
theorem Course.exists_bracket {a b : Activity} {xs opened : List Exchange} (h : Course a xs b)
    (ha : a.Sound) (hm : a.Matches opened) :
    ∃ opened', xs.foldlM Exchange.bracket opened = some opened' ∧ b.Matches opened' := by
  induction h generalizing opened with
  | refl a => exact ⟨opened, rfl, hm⟩
  | @step x xs b _ ih =>
      obtain ⟨mid, hx, hnext⟩ := Exchange.matches_next ha hm
      obtain ⟨opened', hxs, hb⟩ := ih (Exchange.sound_next ha) hnext
      refine ⟨opened', ?_, hb⟩
      rw [List.foldlM_cons, hx]
      exact hxs

/-- A call from outside begins with no activation, or with one that is just entered. -/
theorem matches_call (h : Heap) (limit : ℕ) (callable : Value) (args : List Value) :
    (call h limit callable args).2.Matches [] := by
  rcases call_cases h limit callable args with ⟨r, hr, -⟩ | ⟨_, _, f, -, -, -, -, -, henter⟩
  · rw [hr]
    rfl
  · rw [henter]
    show Exchange.Piled [] (if Event.opensFrame _ = true then [] else _)
    rw [if_pos ((Thread.opensFrame_iff (Thread.tells_enter _)).2 rfl)]
    exact .nil

end Activity

/-! ### Counting events -/

namespace Exchange

theorem countP_opens (xs : List Exchange) :
    xs.countP opens =
      (xs.map event).count .frameStart + (xs.map event).count .frameResume := by
  induction xs with
  | nil => rfl
  | cons x xs ih =>
      have hx : x.opens = (x.event == .frameStart || x.event == .frameResume) := by
        unfold opens
        cases x.event <;> rfl
      simp only [List.countP_cons, List.map_cons, List.count_cons, ih, hx]
      cases x.event <;> simp <;> omega

/-- Where no callback objects to anything, activations are left by returns, yields and
unwindings. -/
theorem countP_closes {xs : List Exchange} (h : ∀ x ∈ xs, x.answer = .ok ()) :
    xs.countP closes = (xs.map event).count .frameReturn + (xs.map event).count .frameYield +
      (xs.map event).count .frameUnwind := by
  induction xs with
  | nil => rfl
  | cons x xs ih =>
      have hx : x.closes =
          (x.event == .frameReturn || x.event == .frameYield || x.event == .frameUnwind) := by
        unfold closes
        rw [h x (List.mem_cons_self ..)]
        cases x.event <;> rfl
      have hxs := ih fun y hy => h y (List.mem_cons_of_mem _ hy)
      simp only [List.countP_cons, List.map_cons, List.count_cons, hxs, hx]
      cases x.event <;> simp <;> omega

end Exchange

/-! ### Calls -/

namespace Machine

/-- **The frame events of a call are well bracketed** in its first `n` steps. -/
structure WellBracketed (m : Machine σ) (s : State σ) (n : ℕ) : Prop where
  /-- Every exchange belongs to the activation that was entered last, and those that are open are
  those of the thread. -/
  nested : ∃ opened, (m.exchanges s n).foldlM Exchange.bracket [] = some opened ∧
    ∀ a, m.activity? s n = some a → a.Matches opened
  covered : ∀ xs, xs <+: m.exchanges s n →
    xs.countP Exchange.closes ≤ xs.countP Exchange.opens
  /-- When the call is over, none is open. -/
  closed : ∀ r, m.activity? s n = some (.finished r) →
    (m.exchanges s n).foldlM Exchange.bracket [] = some [] ∧
      (m.exchanges s n).countP Exchange.opens = (m.exchanges s n).countP Exchange.closes
  balanced : ∀ r, m.activity? s n = some (.finished r) →
    (∀ x ∈ m.exchanges s n, x.answer = .ok ()) →
    ((m.exchanges s n).map Exchange.event).count .frameStart +
        ((m.exchanges s n).map Exchange.event).count .frameResume =
      ((m.exchanges s n).map Exchange.event).count .frameReturn +
        ((m.exchanges s n).map Exchange.event).count .frameYield +
        ((m.exchanges s n).map Exchange.event).count .frameUnwind
  /-- A call that is refused enters nothing. -/
  refused : ∀ i < n, ∀ x, m.exchangeAt? s i = some x → ∀ callable args,
    x.juncture = .called callable args → ∃ a, m.activity? s (i + 1) = some a ∧
      (a.opens = true ↔
        x.answer = .ok () ∧ x.heap.Runnable callable args ∧ x.thread.hasRoom = true)
  /-- Neither does the call itself. -/
  begun : ∀ limit callable args k, s.focus = .script (.call limit callable args k) →
    ∃ a, m.activity? s 1 = some a ∧
      (a.opens = true ↔ s.world.heap.Runnable callable args ∧ 0 < limit)

section Call

variable {m : Machine σ} {s : State σ} {limit : ℕ} {callable : Value} {args : List Value}
  {k : Except Exception Value → Script σ} {n : ℕ}

theorem exists_matches (hcall : s.focus = .script (.call limit callable args k))
    (hn : m.Underway s n) :
    ∃ opened, (m.exchanges s n).foldlM Exchange.bracket [] = some opened ∧
      ∀ a, m.activity? s n = some a → a.Matches opened := by
  cases n with
  | zero =>
      refine ⟨[], rfl, fun a ha => ?_⟩
      have hcourse := course_of_activity? hcall hn ha
      obtain ⟨opened, hopened, hmatches⟩ := hcourse.exists_bracket
        (Activity.sound_call ..) (Activity.matches_call ..)
      cases hopened
      exact hmatches
  | succ n =>
      obtain ⟨a, hruns, hcourse⟩ := exists_course hcall hn
      obtain ⟨opened, hopened, hmatches⟩ := hcourse.exists_bracket
        (Activity.sound_call ..) (Activity.matches_call ..)
      refine ⟨opened, hopened, fun b hb => ?_⟩
      have ha := hruns.activityAt?
      rw [activity?] at hb
      rw [hb, Option.some.injEq] at ha
      rwa [ha]

theorem wellBracketed (hcall : s.focus = .script (.call limit callable args k))
    (hn : m.Underway s n) : m.WellBracketed s n := by
  obtain ⟨opened, hopened, hmatches⟩ := exists_matches hcall hn
  have closed : ∀ r, m.activity? s n = some (.finished r) →
      (m.exchanges s n).foldlM Exchange.bracket [] = some [] ∧
        (m.exchanges s n).countP Exchange.opens = (m.exchanges s n).countP Exchange.closes := by
    intro r hr
    obtain rfl : opened = [] := hmatches _ hr
    have hlength := Exchange.length_bracket hopened
    exact ⟨hopened, by simpa using hlength⟩
  refine ⟨⟨opened, hopened, hmatches⟩, fun xs hxs => ?_, closed, fun r hr hok => ?_,
    fun i hi x hx callable args hj => ?_, fun limit' callable' args' k' hcall' => ?_⟩
  · have hsome : ((m.exchanges s n).foldlM Exchange.bracket []).isSome = true := by
      rw [hopened]
      rfl
    obtain ⟨opened', hopened'⟩ :=
      Option.isSome_iff_exists.1 (Exchange.isSome_of_prefix hxs hsome)
    have hlength := Exchange.length_bracket hopened'
    simp only [List.length_nil] at hlength
    omega
  · rw [← Exchange.countP_opens, ← Exchange.countP_closes hok]
    exact (closed r hr).2
  · have hx' := completes hcall hn hi hx
    exact ⟨x.next, hx'.next, Exchange.opens_next_iff_of_called hx'.reports hj⟩
  · refine ⟨_, activity?_one hcall', Activity.opens_call_iff ..⟩

/-- **The frame events of every call are well bracketed**, whatever the callbacks do; and an entry
is reported as a resumption exactly if the frame is a generator's that has run before. -/
theorem frame_events_bracketed (m : Machine σ) (w : World σ) (script : Script σ) {i : ℕ}
    (hcall : (m.states (.initial w script) i).focus = .script (.call limit callable args k))
    (hn : m.Underway (m.states (.initial w script) i) n) :
    m.WellBracketed (m.states (.initial w script) i) n ∧
      ∀ p t o j k', (m.states (.initial w script) p).focus = .thread (.reporting t o j) k' →
        o.event.opensFrame = true →
        (o.event = .frameResume ↔
          ∃ g, t.top.generator = some g ∧ m.RanBefore (.initial w script) p g) :=
  ⟨wellBracketed hcall hn, fun p => (m.history_states w script p).event⟩

end Call

/-! ### An interrupted loop -/

/-- A generator of one item. -/
def once : Code where
  name := "once"
  firstLine := 1
  params := 0
  locals := 0
  isGenerator := true
  rows := #[⟨.loadConst 0, none, false⟩, ⟨.yield, none, false⟩, ⟨.loadConst 0, none, false⟩,
    ⟨.ret, none, false⟩]
  labels := #[]
  handlers := []
  consts := #[.int 7]

/-- A function that loops over its argument and returns it.  Exceptions in the loop end it. -/
def drain : Code where
  name := "drain"
  firstLine := 5
  params := 1
  locals := 1
  isGenerator := false
  rows := #[⟨.loadLocal 0, none, false⟩, ⟨.forIter ⟨0⟩, none, false⟩, ⟨.pop, none, false⟩,
    ⟨.jump ⟨1⟩, none, false⟩, ⟨.loadLocal 0, none, false⟩, ⟨.ret, none, false⟩]
  labels := #[4, 1]
  handlers := [⟨1, 4, 4, 0⟩]
  consts := #[]

/-- A tool that listens for yields. -/
def listening : World Unit where
  registry := .operated [.claim .debugger "watcher",
    .register .debugger .frameYield (some ⟨0, .code⟩),
    .setGlobal .debugger (.single .frameYield)]
  heap := { Heap.empty with codes := #[once, drain] }
  memory := ()

/-- Its callback objects to everything. -/
def objecting : Machine Unit := .of fun _ _ => .answer (.error (.runtimeError "no"))

/-- A generator is made, and a loop runs over it. -/
def looping : State Unit :=
  .initial listening (.call 9 (.function 0) [] fun r =>
    .call 9 (.function 1) r.toOption.toList fun _ => .done)

/-- The loop comes to its end after these many steps. -/
theorem looping_underway :
    (objecting.states looping 2).focus =
        .script (.call 9 (.function 1) [.generator 0] fun _ => .done) ∧
      objecting.Underway (objecting.states looping 2) 17 ∧
      objecting.activity? (objecting.states looping 2) 17 =
        some (.finished (.ok (.generator 0))) :=
  ⟨rfl, underway_of_forall (by decide +kernel), rfl⟩

/-- The callback objects to the yield, which closes nothing; the frame of the generator and that of
the loop are left all the same. -/
theorem looping_bracketed :
    (objecting.exchanges (objecting.states looping 2) 17).foldlM Exchange.bracket [] = some [] ∧
      ((objecting.exchanges (objecting.states looping 2) 17).map Exchange.event).count
        .frameYield = 1 ∧
      (objecting.exchanges (objecting.states looping 2) 17).countP Exchange.closes = 2 := by
  obtain ⟨hcall, hn, hfinished⟩ := looping_underway
  have hbracketed : objecting.WellBracketed (objecting.states looping 2) 17 :=
    (frame_events_bracketed objecting listening _ hcall hn).1
  obtain ⟨hclosed, hcount⟩ := hbracketed.closed _ hfinished
  refine ⟨hclosed, by decide +kernel, ?_⟩
  rw [← hcount]
  decide +kernel

end Machine

end Tracepoint
