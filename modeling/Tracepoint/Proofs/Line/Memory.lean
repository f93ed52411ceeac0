/-
**What a frame remembers of lines.**

A frame remembers the line of the last instruction that it has turned to and that has one, and
whether it has come to its instruction by a jump.  These two decide whether the line of an
instruction is reported.  Nothing but turning to an instruction changes the line that is remembered,
and what is known of jumps is told by the juncture at which a thread goes on.

This module says so once for all junctures: what comes of an answer minds the line that was
remembered before, and branches know whether they jump.

Main definitions:

* `Tracepoint.Code.Announces` — the line of an instruction is news;
* `Tracepoint.Activity.Minds` — **what is reported next minds the line that is remembered**;
* `Tracepoint.Frame.Diverts`, `Tracepoint.Activity.Branches` — whether a branch jumps.

Main results:

* `Tracepoint.Code.Built.exists_line` — instructions that start a line have one;
* `Tracepoint.Thread.minds_resume`, `Tracepoint.Thread.minds_of_closes` — **what an answer leads to
  minds the line**, whichever activation goes on;
* `Tracepoint.Thread.branches_resume`, `Tracepoint.Thread.branches_of_closes` — **what a branch
  comes from**.
-/

import Tracepoint.Proofs.Code.Built
import Tracepoint.Proofs.Thread.Turn

set_option relaxedAutoImplicit false
set_option autoImplicit false

namespace Tracepoint

/-! ### Lines of code units -/

namespace Code

/-- **The line of an instruction is news**: the instruction starts a line, and it was jumped to or
the line is not the last one. -/
def Announces (c : Code) (i : ℕ) (jumped : Prop) (last : Option ℕ) : Prop :=
  c.startsLine i = true ∧ (jumped ∨ last ≠ c.line? i)

/-- The last line, when the instruction has been turned to: its line, if it has one. -/
def lineAfter (c : Code) (i : ℕ) (last : Option ℕ) : Option ℕ := (c.line? i).or last

/-- Turning to the same instruction again changes nothing. -/
theorem lineAfter_lineAfter (c : Code) (i : ℕ) (last : Option ℕ) :
    c.lineAfter i (c.lineAfter i last) = c.lineAfter i last := by
  unfold lineAfter
  cases c.line? i <;> rfl

end Code

/-- In a draft the instructions that start a line have one. -/
theorem Draft.Written.isSome_line {d : Draft} (h : d.Written) :
    ∀ row ∈ d.rows.toList, row.startsLine = true → row.line.isSome = true := by
  induction h with
  | start => simp [Draft.start]
  | @perform d d' directive _ hd ih =>
      have emitted : ∀ (d : Draft) (i : Instruction),
          (∀ row ∈ d.rows.toList, row.startsLine = true → row.line.isSome = true) →
          ∀ row ∈ (d.emit i).rows.toList, row.startsLine = true → row.line.isSome = true := by
        intro d i hrows row hrow
        rw [Draft.emit, Array.toList_push, List.mem_append, List.mem_singleton] at hrow
        rcases hrow with hrow | rfl
        · exact hrows row hrow
        · exact fun hstarts => (Bool.and_eq_true_iff.1 hstarts).2
      cases directive with
      | bind l =>
          simp only [Draft.perform, Draft.bind] at hd
          split at hd <;> cases hd
          exact ih
      | emit i =>
          cases hd
          exact emitted d i ih
      | load v =>
          cases hd
          exact emitted (d.addConst v) _ ih
      | _ =>
          cases hd
          exact ih

/-- **Instructions that start a line have one.** -/
theorem Code.Built.exists_line {c : Code} (h : c.Built) {i : ℕ} (hi : c.startsLine i = true) :
    ∃ n, c.line? i = some n := by
  obtain ⟨d, hwritten, hd⟩ := h.exists_finishes
  cases hrow : c.rows[i]? with
  | none => simp [Code.startsLine, hrow] at hi
  | some row =>
      have hstarts : row.startsLine = true := by simpa [Code.startsLine, hrow] using hi
      have hmem : row ∈ d.rows.toList := by
        rw [hd.rows] at hrow
        exact Array.mem_toList_iff.2 (Array.mem_of_getElem? hrow)
      obtain ⟨n, hn⟩ := Option.isSome_iff_exists.1 (hwritten.isSome_line row hmem hstarts)
      exact ⟨n, by rw [Code.line?, hrow, Option.bind_some, hn]⟩

/-! ### Minding the last line -/

/-- Whether an event says that an instruction is turned to. -/
def Event.begins : Event → Bool
  | .line | .instruction => true
  | _ => false

/-- Whether an activation goes on with a jump at a juncture. -/
def Juncture.jumps (f : Frame) : Juncture → Bool
  | .entered | .handled _ => f.jumped
  | .transferring _ jumped => jumped
  | _ => false

/-- **What is reported next minds the line that is remembered**: when an instruction is turned to,
its line is reported exactly if it is news, and remembered if there is one; otherwise the same line
is remembered as before.  Whoever is entered has a frame of its own. -/
structure Activity.Minds (last : Option ℕ) (jumped : Bool) (a : Activity) : Prop where
  turned : ∀ t o j, a = .reporting t o j → o.event.begins = true →
    t.frame.lastLine = t.frame.code.lineAfter t.frame.pc last ∧
      (o.event = .line ↔ t.frame.code.Announces t.frame.pc (jumped = true) last) ∧
      (o.event = .line → ∃ n, t.frame.code.line? t.frame.pc = some n ∧
        o.payload.detail = .line n)
  kept : ∀ t o j, a = .reporting t o j → o.event.begins = false → j ≠ .entered →
    t.frame.lastLine = last

namespace Thread

/-- What does not turn to an instruction has to remember the same line. -/
theorem minds_reporting {t : Thread} {o : Occurrence} {j : Juncture} {last : Option ℕ}
    {jumped : Bool} (hlast : t.frame.lastLine = last) (ho : o.event.begins = false) :
    (Activity.reporting t o j).Minds last jumped := by
  refine ⟨?_, ?_⟩
  · rintro _ _ _ ⟨⟩ hbegins
    rw [ho] at hbegins
    cases hbegins
  · rintro _ _ _ ⟨⟩ - -
    exact hlast

theorem minds_enter (t : Thread) (last : Option ℕ) (jumped : Bool) :
    t.enter.Minds last jumped := by
  refine ⟨?_, ?_⟩
  · rintro _ _ _ ⟨⟩ hbegins
    rw [show (Occurrence.event _) = if t.frame.started then .frameResume else .frameStart from rfl]
      at hbegins
    split at hbegins <;> cases hbegins
  · rintro _ _ _ ⟨⟩ - hj
    exact absurd rfl hj

section Building

variable {t : Thread} (hb : t.frame.code.Built)
include hb

/-- **Turning to an instruction.** -/
theorem minds_fetch : t.fetch.Minds t.frame.lastLine t.frame.jumped := by
  have begun : ∀ {f : Frame}, f.code = t.frame.code → f.pc = t.frame.pc →
      f.lastLine = t.frame.code.lineAfter t.frame.pc t.frame.lastLine →
      ¬ t.frame.code.Announces t.frame.pc (t.frame.jumped = true) t.frame.lastLine →
      ((t.withFrame f).begin).Minds t.frame.lastLine t.frame.jumped := by
    intro f hcode hpc hlast hno
    refine ⟨?_, ?_⟩
    · rintro _ _ _ ⟨⟩ -
      refine ⟨?_, ?_, nofun⟩
      · show f.lastLine = f.code.lineAfter f.pc _
        rw [hcode, hpc, hlast]
      · show Event.instruction = .line ↔ f.code.Announces f.pc _ _
        rw [hcode, hpc]
        exact ⟨nofun, fun hyes => absurd hyes hno⟩
    · rintro _ _ _ ⟨⟩ hbegins
      cases hbegins
  simp only [fetch]
  split
  · exact minds_reporting rfl rfl
  · split
    · rename_i hline
      refine begun rfl rfl ?_ ?_
      · simp [Code.lineAfter, hline]
      · rintro ⟨hstarts, -⟩
        obtain ⟨n, hn⟩ := hb.exists_line hstarts
        rw [hline] at hn
        cases hn
    · rename_i n hline
      have hnews : (t.frame.code.startsLine t.frame.pc &&
          (t.frame.jumped || t.frame.lastLine != some n)) = true ↔
          t.frame.code.Announces t.frame.pc (t.frame.jumped = true) t.frame.lastLine := by
        simp [Code.Announces, hline]
      split
      · rename_i hyes
        refine ⟨?_, ?_⟩
        · rintro _ _ _ ⟨⟩ -
          exact ⟨by simp [Code.lineAfter, withFrame, frame, show t.top.frame.code.line?
              t.top.frame.pc = some n from hline],
            ⟨fun _ => hnews.1 hyes, fun _ => rfl⟩, fun _ => ⟨n, hline, rfl⟩⟩
        · rintro _ _ _ ⟨⟩ hbegins
          cases hbegins
      · rename_i hno
        exact begun rfl rfl (by simp [Code.lineAfter, hline]) (fun hyes => hno (hnews.2 hyes))

theorem minds_next (h : Heap) {f : Frame} (hcode : f.code = t.frame.code)
    (hlast : f.lastLine = t.frame.lastLine) :
    (t.next h f).2.Minds t.frame.lastLine false := by
  rw [← hlast]
  have hbuilt : (t.withFrame f.advance).frame.code.Built := by
    show f.code.Built
    rwa [hcode]
  exact minds_fetch hbuilt

end Building

theorem minds_route (t : Thread) (e : Exception) (jumped : Bool) :
    (t.route e).Minds t.frame.lastLine jumped := by
  have hroutes := t.routes_route e
  generalize t.route e = a at hroutes
  cases hroutes with
  | unwinds | handles => exact minds_reporting rfl rfl

/-! ### What an answer leads to -/

section Executing

variable {h : Heap} {t : Thread} {jumped : Bool}

theorem minds_advanceIterator (exit : ℕ) (iterator : Value) :
    (t.advanceIterator h exit iterator).2.Minds t.frame.lastLine jumped := by
  unfold advanceIterator
  split
  · split
    · exact minds_reporting rfl rfl
    · exact minds_reporting rfl rfl
  · split
    · exact minds_reporting rfl rfl
    · exact minds_reporting rfl rfl
    · split
      · exact minds_enter ..
      · exact minds_reporting rfl rfl
  · exact minds_reporting rfl rfl

/-- **Instructions mind the line.** -/
theorem minds_execute (hb : t.frame.code.Built) (i : Instruction) :
    (t.execute h i).2.Minds t.frame.lastLine false := by
  cases i with
  | nop => exact minds_next hb h rfl rfl
  | buildList n =>
      simp only [execute]
      split
      · exact minds_reporting rfl rfl
      · rename_i items f hargs
        obtain ⟨-, -, hf⟩ := stack_of_takeArgs hargs
        exact minds_next hb _ (by rw [hf]; rfl) (by rw [hf]; rfl)
  | call n =>
      simp only [execute]
      split
      · exact minds_reporting rfl rfl
      · rename_i args f hargs
        obtain ⟨-, -, hf⟩ := stack_of_takeArgs hargs
        have hlast : f.lastLine = t.frame.lastLine := by rw [hf]
        split
        · exact minds_reporting hlast rfl
        · exact minds_reporting hlast rfl
  | forIter l =>
      simp only [execute]
      split
      · exact minds_reporting rfl rfl
      · split
        · exact minds_reporting rfl rfl
        · exact minds_advanceIterator ..
  | _ =>
      simp only [execute]
      repeat' split
      all_goals first
        | exact minds_next hb _ rfl rfl
        | exact minds_reporting rfl rfl

theorem minds_makeCall (hb : t.frame.code.Built) (callable : Value) (args : List Value) :
    (t.makeCall h callable args).2.Minds t.frame.lastLine false := by
  unfold makeCall
  split
  · split
    · exact minds_reporting rfl rfl
    · split
      · exact minds_reporting rfl rfl
      · split
        · exact minds_next hb _ rfl rfl
        · split
          · exact minds_enter ..
          · exact minds_reporting rfl rfl
  · split
    · exact minds_reporting rfl rfl
    · exact minds_reporting rfl rfl

theorem minds_leaveLoop : (t.leaveLoop h).2.Minds t.frame.lastLine jumped := by
  unfold leaveLoop
  split
  · exact minds_reporting rfl rfl
  · exact minds_reporting rfl rfl

end Executing

/-- **What an answer leads to minds the line**, if the activation on top goes on or another one
comes on top of it.  Behind the report of a line the instruction itself is reported, which is no
turn. -/
theorem minds_resume {t : Thread} (hb : t.frame.code.Built) (h : Heap) {j : Juncture}
    (hj : j ≠ .line) {r : Except Exception Unit} (hr : j.closes r = false) :
    (t.resume h j r).2.Minds t.frame.lastLine (j.jumps t.frame) := by
  cases r with
  | error fault =>
      cases j with
      | raised e => exact minds_route ..
      | unwound e => cases hr
      | handled e => exact minds_reporting rfl rfl
      | _ => exact minds_reporting rfl rfl
  | ok u =>
      cases j with
      | line => exact absurd rfl hj
      | returning v | yielding v | unwound e => cases hr
      | entered => exact minds_fetch hb
      | instruction =>
          show (t.executeCurrent h).2.Minds t.frame.lastLine false
          unfold executeCurrent
          split
          · exact minds_execute hb _
          · exact minds_reporting rfl rfl
      | called callable args => exact minds_makeCall hb callable args
      | nativeReturned v => exact minds_next hb h rfl rfl
      | nativeRaised e => exact minds_reporting rfl rfl
      | transferring pc jumped =>
          exact minds_fetch (t := t.withFrame (t.frame.goto pc jumped)) hb
      | stopped => exact minds_leaveLoop
      | raised e => exact minds_route ..
      | handled e => exact minds_fetch (t := t.withFrame (t.frame.push (.exception e))) hb

/-- So does what is reported of the activation below, when the one on top is left. -/
theorem minds_of_closes {t caller : Thread} (hb : caller.frame.code.Built)
    (hp : t.pop? = some caller) (h : Heap) {j : Juncture} {r : Except Exception Unit}
    (hr : j.closes r = true) : (t.resume h j r).2.Minds caller.frame.lastLine false := by
  cases j with
  | returning v =>
      cases r with
      | error fault => cases hr
      | ok u =>
          show (t.leaveByReturn h v).2.Minds caller.frame.lastLine false
          unfold leaveByReturn
          split
          · rename_i caller' _ hp'
            obtain rfl : caller = caller' := Option.some.inj (hp.symm.trans hp')
            exact minds_reporting rfl rfl
          · simp only [leaveReturning, hp]
            exact minds_next hb _ rfl rfl
  | yielding v =>
      cases r with
      | error fault => cases hr
      | ok u =>
          show (t.leaveByYield h v).2.Minds caller.frame.lastLine false
          unfold leaveByYield
          split
          · rename_i caller' _ hp'
            obtain rfl : caller = caller' := Option.some.inj (hp.symm.trans hp')
            exact minds_reporting rfl rfl
          · simp only [leaveRaising, hp]
            exact minds_reporting rfl rfl
  | unwound e =>
      have hleave : (t.resume h (.unwound e) r).2 = t.leaveRaising (e.carried r) := by
        cases r <;> rfl
      rw [hleave]
      simp only [leaveRaising, hp]
      exact minds_reporting rfl rfl
  | _ => cases r <;> cases hr

end Thread

/-! ### Branches that jump -/

/-- **A branch jumps** that comes from an instruction: a test jumps if what it takes from the stack
is false, and a loop if it takes the iterator from the stack. -/
def Frame.Diverts (f : Frame) (h : Heap) (stack : List Value) : Prop :=
  (∃ l v rest, f.current? = some (.popJumpIfFalse l) ∧ f.stack = v :: rest ∧
      h.isTruthy v = false) ∨
    ∃ l, f.current? = some (.forIter l) ∧ stack = f.stack.tail

/-- If what is reported next is a branch, it is of a kind: whether it jumps, and the stack. -/
structure Activity.Branches (kind : Bool → List Value → Prop) (a : Activity) : Prop where
  kind : ∀ t o pc jumped, a = .reporting t o (.transferring pc jumped) → o.event = .branch →
    kind jumped t.frame.stack

namespace Frame

variable {f : Frame} {h : Heap} {l : Label}

theorem diverts_popJumpIfFalse (hi : f.current? = some (.popJumpIfFalse l)) {v : Value}
    {rest : List Value} (hs : f.stack = v :: rest) (stack : List Value) :
    f.Diverts h stack ↔ h.isTruthy v = false := by
  constructor
  · rintro (⟨_, v', rest', -, hs', hv⟩ | ⟨l', hi', -⟩)
    · rw [hs] at hs'
      cases hs'
      exact hv
    · rw [hi] at hi'
      cases hi'
  · intro hv
    exact Or.inl ⟨l, v, rest, hi, hs, hv⟩

theorem diverts_forIter (hi : f.current? = some (.forIter l)) (stack : List Value) :
    f.Diverts h stack ↔ stack = f.stack.tail := by
  constructor
  · rintro (⟨_, _, _, hi', -⟩ | ⟨-, -, hs⟩)
    · rw [hi] at hi'
      cases hi'
    · exact hs
  · intro hs
    exact Or.inr ⟨l, hi, hs⟩

end Frame

namespace Thread

variable {kind : Bool → List Value → Prop} {h : Heap} {t : Thread}

theorem branches_reporting {t' : Thread} {o : Occurrence} {j : Juncture}
    (hj : ∀ pc jumped, j ≠ .transferring pc jumped) :
    (Activity.reporting t' o j).Branches kind := by
  refine ⟨?_⟩
  rintro _ _ _ _ ⟨⟩
  exact absurd rfl (hj _ _)

theorem branches_fetch (t : Thread) : t.fetch.Branches kind := by
  have hfetches := t.fetches_fetch
  generalize t.fetch = a at hfetches
  cases hfetches <;> exact branches_reporting (fun _ _ hj => by cases hj)

theorem branches_route (t : Thread) (e : Exception) : (t.route e).Branches kind := by
  have hroutes := t.routes_route e
  generalize t.route e = a at hroutes
  cases hroutes <;> exact branches_reporting (fun _ _ hj => by cases hj)

theorem branches_enter (t : Thread) : t.enter.Branches kind :=
  branches_reporting (fun _ _ hj => by cases hj)

theorem branches_raise (t : Thread) (e : Exception) : (t.raise e).Branches kind :=
  branches_reporting (fun _ _ hj => by cases hj)

theorem branches_transfer {f : Frame} {pc : ℕ} {jumped : Bool} (hk : kind jumped f.stack) :
    (t.transfer h f .branch pc jumped).2.Branches kind := by
  refine ⟨?_⟩
  rintro _ _ _ _ ⟨⟩ -
  exact hk

/-- A loop that goes on has its iterator below the item, and one that is exhausted has taken it from
the stack. -/
theorem branches_advanceIterator {l : Label} (hi : t.frame.current? = some (.forIter l)) (exit : ℕ)
    (iterator : Value) : (t.advanceIterator h exit iterator).2.Branches
      fun jumped stack => jumped = true ↔ t.frame.Diverts h stack := by
  have produced : ∀ (h' : Heap) (item : Value), (t.produce h' item).2.Branches
      fun jumped stack => jumped = true ↔ t.frame.Diverts h stack := by
    intro h' item
    refine branches_transfer ?_
    rw [Frame.diverts_forIter hi]
    refine ⟨nofun, fun hs => ?_⟩
    have hlength := congrArg List.length hs
    simp only [Frame.push, List.length_cons, List.length_tail] at hlength
    omega
  have exhausted : (t.exhaust h exit).2.Branches
      fun jumped stack => jumped = true ↔ t.frame.Diverts h stack := by
    refine branches_transfer ?_
    rw [Frame.diverts_forIter hi]
    exact ⟨fun _ => rfl, fun _ => rfl⟩
  unfold advanceIterator
  split
  · split
    · exact produced ..
    · exact exhausted
  · split
    · exact branches_raise ..
    · exact exhausted
    · split
      · exact branches_enter _
      · exact branches_raise ..
  · exact branches_raise ..

/-- **The branch of an instruction jumps exactly if the instruction diverts control.** -/
theorem branches_execute {i : Instruction} (hi : t.frame.current? = some i) :
    (t.execute h i).2.Branches fun jumped stack => jumped = true ↔ t.frame.Diverts h stack := by
  cases i with
  | popJumpIfFalse l =>
      simp only [execute]
      split
      · exact branches_raise ..
      · rename_i v stack hs
        have hdiverts := fun stack' => Frame.diverts_popJumpIfFalse (h := h) hi hs stack'
        split
        · rename_i hv
          refine branches_transfer ?_
          rw [hdiverts]
          constructor
          · rintro ⟨⟩
          · intro hno
            exact absurd hv (by simp [hno])
        · rename_i hv
          split
          · exact branches_raise ..
          · refine branches_transfer ?_
            rw [hdiverts]
            exact ⟨fun _ => by simpa using hv, fun _ => rfl⟩
  | forIter l =>
      simp only [execute]
      split
      · exact branches_raise ..
      · split
        · exact branches_raise ..
        · exact branches_advanceIterator hi ..
  | jump l =>
      simp only [execute]
      split
      · exact branches_raise ..
      · refine ⟨?_⟩
        rintro _ _ _ _ ⟨⟩ hevent
        cases hevent
  | nop => exact branches_fetch _
  | _ =>
      simp only [execute]
      repeat' split
      all_goals first
        | exact branches_fetch _
        | exact branches_raise ..
        | exact branches_reporting (fun _ _ hj => by cases hj)

theorem branches_makeCall (callable : Value) (args : List Value) :
    (t.makeCall h callable args).2.Branches kind := by
  unfold makeCall
  split
  · split
    · exact branches_raise ..
    · split
      · exact branches_raise ..
      · split
        · exact branches_fetch _
        · split
          · exact branches_enter _
          · exact branches_raise ..
  · split <;> exact branches_reporting (fun _ _ hj => by cases hj)

/-- **What a branch comes from**: an instruction, which knows whether it diverts control, or the
return of the generator that a loop runs over, which exhausts the loop. -/
theorem branches_resume {j : Juncture} {r : Except Exception Unit} (hr : j.closes r = false) :
    (t.resume h j r).2.Branches fun jumped stack => r = .ok () ∧
      ((j = .instruction ∧ (jumped = true ↔ t.frame.Diverts h stack)) ∨
        (j = .stopped ∧ jumped = true ∧ stack = t.frame.stack.tail)) := by
  cases r with
  | error fault =>
      cases j with
      | raised e => exact branches_route ..
      | unwound e => cases hr
      | _ => exact branches_raise ..
  | ok u =>
      cases j with
      | returning v | yielding v | unwound e => cases hr
      | instruction =>
          show (t.executeCurrent h).2.Branches _
          unfold executeCurrent
          split
          · rename_i i hi
            refine ⟨?_⟩
            intro t' o pc jumped ha ho
            exact ⟨rfl, Or.inl ⟨rfl, (branches_execute hi).kind t' o pc jumped ha ho⟩⟩
          · exact branches_raise ..
      | called callable args => exact branches_makeCall ..
      | stopped =>
          show (t.leaveLoop h).2.Branches _
          unfold leaveLoop
          split
          · exact branches_transfer ⟨rfl, Or.inr ⟨rfl, rfl, rfl⟩⟩
          · exact branches_raise ..
      | raised e => exact branches_route ..
      | nativeRaised e => exact branches_raise ..
      | line => exact branches_reporting (fun _ _ hj => by cases hj)
      | entered | nativeReturned _ | transferring _ _ | handled _ => exact branches_fetch _

/-- A generator that yields leaves a branch to its loop, which goes on with the item. -/
theorem branches_of_closes {caller : Thread} (hp : t.pop? = some caller) {j : Juncture}
    {r : Except Exception Unit} (hr : j.closes r = true) :
    (t.resume h j r).2.Branches fun jumped stack =>
      jumped = false ∧ ∃ v, stack = v :: caller.frame.stack := by
  cases j with
  | returning v =>
      cases r with
      | error fault => cases hr
      | ok u =>
          show (t.leaveByReturn h v).2.Branches _
          unfold leaveByReturn
          split
          · exact branches_reporting (fun _ _ hj => by cases hj)
          · simp only [leaveReturning, hp]
            exact branches_fetch _
  | yielding v =>
      cases r with
      | error fault => cases hr
      | ok u =>
          show (t.leaveByYield h v).2.Branches _
          unfold leaveByYield
          split
          · rename_i caller' _ hp'
            obtain rfl : caller = caller' := Option.some.inj (hp.symm.trans hp')
            exact branches_transfer ⟨rfl, v, rfl⟩
          · simp only [leaveRaising, hp]
            exact branches_raise ..
  | unwound e =>
      have hleave : (t.resume h (.unwound e) r).2 = t.leaveRaising (e.carried r) := by
        cases r <;> rfl
      rw [hleave]
      simp only [leaveRaising, hp]
      exact branches_raise ..
  | _ => cases r <;> cases hr

end Thread

end Tracepoint
