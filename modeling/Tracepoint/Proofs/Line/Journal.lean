/-
**The journal of a frame.**

The reports that a frame has made, with their answers, are its journal.  From the journal alone one
can tell what decides whether the line of an instruction is reported: the line of the instruction
that was turned to last, and whether the present one was reached by a jump.  The frame keeps the
same in two fields, which every instruction, branch, handler, yield and fault treats in its own way;
this module says that the fields and the journal always agree, from one report of the frame to the
next.

There are two ways in which a frame comes to its next report.  It goes on after an answer itself, or
it has waited for another frame, which is left; then it goes on from its last report, which was that
of a call or of a loop.

Main definitions:

* `Tracepoint.Exchange.latestLine`, `Tracepoint.Exchange.latestBegin?` — the line and the exchange
  of the instruction that was turned to last;
* `Tracepoint.Exchange.ReachedByJump`, `Tracepoint.Exchange.Arrived` — how control has got where it
  is;
* `Tracepoint.Exchange.Started` — the present instruction was reported and nobody has objected;
* `Tracepoint.Exchange.Recounts` — **a journal agrees with what the frame reports next**;
* `Tracepoint.Exchange.Awaits` — a journal agrees with a frame that waits.

Main results:

* `Tracepoint.Exchange.onward_next`, `Tracepoint.Exchange.resumes_next` — the next report of a frame
  that goes on, and of one that has waited;
* `Tracepoint.Exchange.Recounts.next`, `Tracepoint.Exchange.Awaits.recounts` — **journals go on
  agreeing**.
-/

import Tracepoint.Proofs.Control.Bounds
import Tracepoint.Proofs.Line.Memory

set_option relaxedAutoImplicit false
set_option autoImplicit false

namespace Tracepoint

/-- Whether an event is reported of an instruction after the instruction itself. -/
def Event.isInside : Event → Bool
  | .call | .nativeReturn | .nativeRaise | .frameReturn | .frameYield | .jump | .branch
  | .stopIteration => true
  | _ => false

theorem Event.isInside_eq_false {e : Event} (h : e.begins = true) : e.isInside = false := by
  cases e <;> first | rfl | cases h

/-- Whether an event says that control goes to an instruction, from wherever. -/
def Event.directs (e : Event) : Bool :=
  e.opensFrame || e == .jump || e == .branch || e == .exceptionHandled

namespace Exchange

/-! ### Reading a journal -/

/-- An instruction was turned to. -/
def begins (x : Exchange) : Bool := x.event.begins

/-- The line of the instruction at which an exchange was made. -/
def line? (x : Exchange) : Option ℕ := x.thread.frame.code.line? x.thread.frame.pc

/-- **The line of the latest instruction with a line that was turned to.** -/
def latestLine (xs : List Exchange) : Option ℕ :=
  (xs.filterMap fun x => if x.begins then x.line? else none).getLast?

/-- The latest exchange with which an instruction was turned to. -/
def latestBegin? (xs : List Exchange) : Option Exchange := (xs.filter begins).getLast?

/-- **An exchange makes a frame reach the next instruction by a jump**: it is a jump, the branch of
an instruction that diverts control, or the entry of a handler, and nobody has objected. -/
inductive Jumps (before : List Exchange) (x : Exchange) : Prop
  | jump (ha : x.answer = .ok ()) (he : x.event = .jump)
  | branch (ha : x.answer = .ok ()) (he : x.event = .branch) {p : Exchange}
      (hp : latestBegin? before = some p)
      (hd : p.thread.frame.Diverts p.heap x.thread.frame.stack)
  | handler (ha : x.answer = .ok ()) (he : x.event = .exceptionHandled)

/-- The present instruction was reached by a jump. -/
def ReachedByJump (xs : List Exchange) : Prop :=
  ∃ before x, xs = before ++ [x] ∧ x.Jumps before

/-- **An exchange leads control to an instruction**: the frame is entered there, a transfer of
control or a handler goes there, or an instruction that names no target is done in front of it. -/
inductive LeadsTo (x : Exchange) (pc : ℕ) : Prop
  | entered (ha : x.answer = .ok ()) (he : x.event.opensFrame = true)
      (hpc : pc = x.thread.frame.pc)
  | transferred (ha : x.answer = .ok ()) (he : x.event = .jump ∨ x.event = .branch)
      (hpc : x.occurrence.payload.detail = .branch (offsetOf pc))
  | handled (ha : x.answer = .ok ()) (he : x.event = .exceptionHandled)
      (hpc : pc = x.thread.frame.pc)
  | done (ha : x.answer = .ok ())
      (he : x.event = .instruction ∨ x.event = .call ∨ x.event = .nativeReturn)
      {i : Instruction} (hi : x.thread.frame.current? = some i) (htarget : i.target? = none)
      (hpc : pc = x.thread.frame.pc + 1)

/-- Control has just got to an instruction. -/
def Arrived (xs : List Exchange) (pc : ℕ) : Prop :=
  ∃ before x, xs = before ++ [x] ∧ x.LeadsTo pc

/-- **The instruction was reported**, nobody has objected, and no other one was turned to since. -/
def Started (xs : List Exchange) (pc : ℕ) : Prop :=
  ∃ p, latestBegin? xs = some p ∧ p.event = .instruction ∧ p.answer = .ok () ∧
    p.thread.frame.pc = pc

section Reading

variable (xs : List Exchange) (x : Exchange)

theorem latestLine_concat :
    latestLine (xs ++ [x]) =
      if x.begins then x.thread.frame.code.lineAfter x.thread.frame.pc (latestLine xs)
      else latestLine xs := by
  unfold latestLine Code.lineAfter
  rw [List.filterMap_append]
  cases hb : x.begins with
  | false => simp [hb]
  | true =>
      cases hl : x.line? with
      | none =>
          have hl' : x.thread.frame.code.line? x.thread.frame.pc = none := hl
          simp [hb, hl, hl']
      | some n =>
          have hl' : x.thread.frame.code.line? x.thread.frame.pc = some n := hl
          simp [hb, hl, hl']

theorem latestBegin?_concat :
    latestBegin? (xs ++ [x]) = if x.begins then some x else latestBegin? xs := by
  unfold latestBegin?
  rw [List.filter_append]
  cases hb : x.begins <;> simp [hb]

variable {xs x}

theorem reachedByJump_concat : ReachedByJump (xs ++ [x]) ↔ x.Jumps xs := by
  constructor
  · rintro ⟨before, y, hxs, hy⟩
    obtain ⟨rfl, hyx⟩ := List.append_inj' hxs rfl
    obtain rfl := List.head_eq_of_cons_eq hyx
    exact hy
  · intro hx
    exact ⟨xs, x, rfl, hx⟩

theorem arrived_concat {pc : ℕ} (h : x.LeadsTo pc) : Arrived (xs ++ [x]) pc := ⟨xs, x, rfl, h⟩

/-- An instruction that was reported is the one that is turned to last. -/
theorem started_concat_self (he : x.event = .instruction) (ha : x.answer = .ok ()) :
    Started (xs ++ [x]) x.thread.frame.pc := by
  have hb : x.begins = true := by rw [begins, he]; rfl
  exact ⟨x, by rw [latestBegin?_concat, if_pos hb], he, ha, rfl⟩

theorem Started.concat {pc : ℕ} (h : Started xs pc) (hb : x.begins = false) :
    Started (xs ++ [x]) pc := by
  obtain ⟨p, hp, he, ha, hpc⟩ := h
  exact ⟨p, by rw [latestBegin?_concat, hb]; exact hp, he, ha, hpc⟩

end Reading

/-! ### What comes next -/

end Exchange

theorem Frame.Tells.at_line {f : Frame} {event : Event} {d : Detail} (h : f.Tells event d .line) :
    event = .line := by
  cases h
  rfl

theorem Frame.Tells.of_line {f : Frame} {d : Detail} {j : Juncture} (h : f.Tells .line d j) :
    j = .line := by
  cases h
  rfl

theorem Frame.Tells.at_handled {f : Frame} {event : Event} {d : Detail} {e : Exception}
    (h : f.Tells event d (.handled e)) : event = .exceptionHandled := by
  cases h
  rfl

namespace Exchange

section Next

variable {x : Exchange} {t : Thread} {o : Occurrence} {j : Juncture}

/-- **What a frame reports next** when it goes on itself, except behind the report of a line: it
turns to an instruction, its instruction works or has raised, or an exception is sent on its way. -/
inductive Onward (x : Exchange) (t : Thread) (o : Occurrence) (j : Juncture) : Prop
  | begins (ho : o.event.begins = true) (hl : x.LeadsTo t.frame.pc)
  | works (ho : o.event.isInside = true) (hstop : o.event ≠ .stopIteration)
      (ha : x.answer = .ok ()) (hj : x.juncture.works = true)
      (hpc : t.frame.pc = x.thread.frame.pc)
  | raises (ho : o.event = .raise)
      (h : (∃ f, x.answer = .error f) ∨
        (x.answer = .ok () ∧ x.juncture.works = true ∧ t.frame.pc = x.thread.frame.pc))
  | resolves (ho : o.event.resolves = true) (hj : ∃ e, x.juncture = .raised e)
      (hjumped : o.event = .exceptionHandled → t.frame.jumped = true)

/-- What is told in the middle of an instruction. -/
theorem isInside_of_isMidway {f : Frame} {e : Event} {d : Detail} (ht : f.Tells e d j)
    (hj : j.isMidway = true) : e.isInside = true ∧ e ≠ .stopIteration := by
  cases ht <;> first | exact absurd hj Bool.false_ne_true | exact ⟨rfl, nofun⟩

/-- A valid frame that turns to an instruction reports it or its line. -/
theorem begins_of_fetch (t' : Thread) (hv : t'.frame.Valid) (h : t'.fetch = .reporting t o j) :
    o.event.begins = true ∧ t.frame.pc = t'.frame.pc := by
  obtain ⟨i, hi⟩ := hv.exists_current
  have hfetches := t'.fetches_fetch
  rw [h] at hfetches
  generalize ha : Activity.reporting t o j = a at hfetches
  cases hfetches with
  | lost hnone =>
      rw [hi] at hnone
      cases hnone
  | line | instruction =>
      cases ha
      exact ⟨rfl, rfl⟩

/-- The instruction that is done names no target, and has been reported, or has called a function or
a native that has returned. -/
theorem event_of_passes (hr : x.thread.Reports x.occurrence x.juncture)
    (hok : x.answer = .ok ()) (hj : x.juncture.works = true) {i : Instruction}
    (hi : x.thread.frame.current? = some i) (htarget : i.target? = none)
    (hnext : x.next = .reporting t o j) (ho : o.event.begins = true) :
    x.event = .instruction ∨ x.event = .call ∨ x.event = .nativeReturn := by
  have htells := hr.tells
  generalize hjx : x.juncture = jx at hj htells
  have hevent : x.event = x.occurrence.event := rfl
  generalize x.occurrence.event = event at htells hevent
  generalize x.occurrence.payload.detail = d at htells
  cases htells with
  | instruction => exact Or.inl hevent
  | call => exact Or.inr (Or.inl hevent)
  | nativeReturn => exact Or.inr (Or.inr hevent)
  | @nativeRaise _ _ _ _ e =>
      have hraise : x.next = x.thread.raise e := by
        rw [next, hjx, hok]
        rfl
      rw [hnext] at hraise
      cases hraise
      cases ho
  | stop hi' =>
      rw [hi, Option.some.injEq] at hi'
      rw [hi'] at htarget
      cases htarget
  | _ => cases hj

/-- **The next report of a frame that goes on.** -/
theorem onward_next (hx : x.report.Valid) (hline : x.juncture ≠ .line)
    (hcloses : x.juncture.closes x.answer = false) (hnext : x.next = .reporting t o j)
    (hentered : j ≠ .entered) : x.Onward t o j := by
  obtain ⟨hr, hpile⟩ : x.thread.Reports x.occurrence x.juncture ∧
    ∀ a ∈ x.thread.pile, a.Valid := hx
  have hvalid : x.thread.frame.Valid := (hpile _ (List.mem_cons_self ..)).frame
  have hturn := turn_next hr
  rw [hnext] at hturn
  generalize ha : Activity.reporting t o j = a at hturn
  generalize hjx : x.juncture = jx at hturn hcloses hline
  cases hturn with
  | goes hok _ hgoes =>
      cases hgoes with
      | @arrives _ f hf hm =>
          obtain ⟨ho, hpc⟩ := begins_of_fetch (x.thread.withFrame f) (hvalid.moves hm) ha.symm
          refine .begins ho ?_
          rw [hpc]
          have htells := tells_juncture hr hjx
          cases jx with
          | entered =>
              cases hf
              exact .entered hok ((Thread.opensFrame_iff htells).2 rfl) rfl
          | transferring pc jumped =>
              cases hf
              exact .transferred hok htells.at_transferring.1 htells.at_transferring.2
          | handled e =>
              cases hf
              exact .handled hok htells.at_handled rfl
          | _ => cases hf
      | begins => exact absurd rfl hline
      | works hworks hperforms =>
          rw [← hjx] at hworks
          cases hperforms with
          | @passes f i hf hi hn htarget =>
              have hm : x.thread.frame.Moves f.advance := by
                refine hf.goto ?_ false
                rw [hf.pc]
                exact .next hi hn
              obtain ⟨ho, hpc⟩ :=
                begins_of_fetch (x.thread.withFrame f.advance) (hvalid.moves hm) ha.symm
              have hevent := event_of_passes hr hok hworks hi htarget hnext ho
              refine .begins ho (.done hok hevent hi htarget ?_)
              rw [hpc]
              show f.pc + 1 = _
              rw [hf.pc]
          | tells hf ht hmid =>
              cases ha
              obtain ⟨hinside, hstop⟩ := isInside_of_isMidway ht hmid
              exact .works hinside hstop hok hworks hf.pc
          | fails hf =>
              cases ha
              exact .raises rfl (Or.inr ⟨hok, hworks, hf.pc⟩)
  | fails hfault =>
      cases ha
      exact .raises rfl (Or.inl ⟨_, hfault⟩)
  | @resolves e hraised =>
      have hroutes := x.thread.routes_route (e.carried x.answer)
      rw [← ha] at hroutes
      generalize ha' : Activity.reporting t o j = a' at hroutes
      cases hroutes with
      | unwinds =>
          cases ha'
          exact .resolves rfl ⟨e, hjx.trans hraised⟩ nofun
      | handles =>
          cases ha'
          exact .resolves rfl ⟨e, hjx.trans hraised⟩ (fun _ => rfl)
  | enters =>
      cases ha
      exact absurd rfl hentered
  | leaves _ hyes => simp [hcloses] at hyes
  | stops hok hraised => simp [hok, hraised, Juncture.closes] at hcloses
  | unwinds hraised => simp [hraised, Juncture.closes] at hcloses
  | strays hok hraised => simp [hok, hraised, Juncture.closes] at hcloses
  | ends => cases ha

/-- **What a frame reports next** that has waited for another one: its instruction is done, works,
or has raised. -/
inductive Resumes (caller t : Thread) (o : Occurrence) (j : Juncture) : Prop
  | begins (ho : o.event.begins = true) {i : Instruction} (hi : caller.frame.current? = some i)
      (htarget : i.target? = none) (hpc : t.frame.pc = caller.frame.pc + 1)
  | works (ho : o.event.isInside = true) (hpc : t.frame.pc = caller.frame.pc)
      (hsame : o.event = .stopIteration → t.frame = caller.frame)
      (htarget : ∀ pc jumped, j = .transferring pc jumped →
        ∃ i l, caller.frame.current? = some i ∧ i.target? = some l)
  | raises (ho : o.event = .raise) (hpc : t.frame.pc = caller.frame.pc)

/-- **The next report of a frame that has waited.** -/
theorem resumes_next (hx : x.report.Valid) (hcloses : x.juncture.closes x.answer = true)
    {caller : Thread} (hp : x.thread.pop? = some caller) (hnext : x.next = .reporting t o j) :
    Resumes caller t o j := by
  obtain ⟨hr, hpile⟩ : x.thread.Reports x.occurrence x.juncture ∧
    ∀ a ∈ x.thread.pile, a.Valid := hx
  have hvalid : caller.frame.Valid := by
    refine (hpile caller.top ?_).frame
    rw [Thread.pile, (Thread.pile_of_pop? hp).1]
    exact List.mem_cons_of_mem _ (List.mem_cons_self ..)
  have same : ∀ {caller'}, x.thread.pop? = some caller' → caller = caller' := by
    intro caller' hp'
    exact Option.some.inj (hp.symm.trans hp')
  have hturn := turn_next hr
  rw [hnext] at hturn
  generalize ha : Activity.reporting t o j = a at hturn
  generalize hjx : x.juncture = jx at hturn hcloses
  cases hturn with
  | goes _ hno => simp [hcloses] at hno
  | fails _ hno => simp [hcloses] at hno
  | resolves hraised => simp [hraised, Juncture.closes] at hcloses
  | enters hok he => simp [hok, he.closes_eq_false] at hcloses
  | leaves _ _ hp' hperforms =>
      obtain rfl := same hp'
      cases hperforms with
      | @passes f i hf hi hn htarget =>
          have hm : caller.frame.Moves f.advance := by
            refine hf.goto ?_ false
            rw [hf.pc]
            exact .next hi hn
          obtain ⟨ho, hpc⟩ :=
            begins_of_fetch (caller.withFrame f.advance) (hvalid.moves hm) ha.symm
          refine .begins ho hi htarget ?_
          rw [hpc]
          show f.pc + 1 = _
          rw [hf.pc]
      | tells hf ht hmid htarget =>
          cases ha
          obtain ⟨hinside, hstop⟩ := isInside_of_isMidway ht hmid
          exact .works hinside hf.pc (fun ho => absurd ho hstop) htarget
      | fails hf =>
          cases ha
          exact .raises rfl hf.pc
  | stops _ _ _ hp' =>
      obtain rfl := same hp'
      cases ha
      refine .works rfl rfl (fun _ => rfl) ?_
      rintro _ _ ⟨⟩
  | unwinds _ hp' =>
      obtain rfl := same hp'
      cases ha
      exact .raises rfl rfl
  | strays _ _ _ hp' =>
      obtain rfl := same hp'
      cases ha
      exact .raises rfl rfl
  | ends => cases ha

end Next

/-! ### Journals that agree with frames -/

/-- **A journal agrees with what the frame reports next.** -/
structure Recounts (xs : List Exchange) (t : Thread) (o : Occurrence) (j : Juncture) : Prop where
  /-- The line that is remembered is the latest one. -/
  memory : t.frame.lastLine =
    if o.event.begins then t.frame.code.lineAfter t.frame.pc (latestLine xs) else latestLine xs
  entered : o.event.opensFrame = true → t.frame.jumped = false
  /-- An instruction is turned to when control gets there, or behind its line. -/
  begun : o.event.begins = true →
    (∃ before y, xs = before ++ [y] ∧ y.event = .line ∧ y.answer = .ok () ∧ y.thread = t ∧
        o.event = .instruction) ∨
      (Arrived xs t.frame.pc ∧
        (o.event = .line ↔
          t.frame.code.Announces t.frame.pc (ReachedByJump xs) (latestLine xs)) ∧
        (o.event = .line → ∃ n, t.frame.code.line? t.frame.pc = some n ∧
          o.payload.detail = .line n))
  started : o.event.isInside = true → Started xs t.frame.pc
  /-- What a transfer of control knows of jumps is what the journal tells. -/
  jumped : ∀ pc jumped, j = .transferring pc jumped →
    (jumped = true ↔ o.event = .jump ∨ (o.event = .branch ∧ ∃ p, latestBegin? xs = some p ∧
      p.thread.frame.Diverts p.heap t.frame.stack))
  stopped : o.event = .stopIteration →
    ∃ p, latestBegin? xs = some p ∧ p.thread.frame = t.frame
  handled : o.event = .exceptionHandled → t.frame.jumped = true
  raised : o.event = .raise →
    Started xs t.frame.pc ∨ ∃ before y f, xs = before ++ [y] ∧ y.answer = .error f
  /-- Behind a line comes its instruction, unless a callback has objected. -/
  behind : ∀ before y, xs = before ++ [y] → y.event = .line → t = y.thread ∧
    (y.answer = .ok () → o.event = .instruction) ∧ ∀ f, y.answer = .error f → o.event = .raise
  /-- Where control is directed, an instruction is turned to. -/
  directed : ∀ before y, xs = before ++ [y] → y.event.directs = true → y.answer = .ok () →
    o.event.begins = true

/-- **A journal agrees with a frame that waits**: its last report was that of a call or a loop. -/
structure Awaits (xs : List Exchange) (a : Activation) : Prop where
  last : ∃ before y, xs = before ++ [y] ∧ y.answer = .ok () ∧ y.thread.top = a ∧
    (y.event = .instruction ∨ (y.event = .call ∧ ∃ n, a.frame.current? = some (.call n)))
  memory : a.frame.lastLine = latestLine xs
  started : Started xs a.frame.pc

section Agreeing

variable {xs : List Exchange} {x : Exchange} {t : Thread} {o : Occurrence} {j : Juncture}

/-- A journal has one last exchange. -/
theorem last_eq {before : List Exchange} {y : Exchange} (h : xs ++ [x] = before ++ [y]) : y = x :=
  (List.head_eq_of_cons_eq (List.append_inj' h rfl).2).symm

/-- After its exchange a frame remembers the latest line of its journal. -/
theorem Recounts.lastLine_eq (h : Recounts xs x.thread x.occurrence x.juncture) :
    x.thread.frame.lastLine = latestLine (xs ++ [x]) := by
  rw [latestLine_concat]
  exact h.memory

/-- **What a thread knows of jumps is what the journal tells.** -/
theorem Recounts.jumps_iff (h : Recounts xs x.thread x.occurrence x.juncture)
    (hr : x.thread.Reports x.occurrence x.juncture) (ha : x.answer = .ok ()) :
    x.juncture.jumps x.thread.frame = true ↔ ReachedByJump (xs ++ [x]) := by
  rw [reachedByJump_concat]
  have no : ∀ {P : Prop}, x.event ≠ .jump → x.event ≠ .branch → x.event ≠ .exceptionHandled →
      x.Jumps xs → P := by
    intro P hjump hbranch hhandled hj
    cases hj with
    | jump _ he => exact absurd he hjump
    | branch _ he => exact absurd he hbranch
    | handler _ he => exact absurd he hhandled
  have htells := hr.tells
  have hjumped := h.jumped
  have hentered := h.entered
  have hhandled := h.handled
  have hevent : x.event = x.occurrence.event := rfl
  generalize x.occurrence.event = event at htells hevent hjumped hentered hhandled
  generalize x.occurrence.payload.detail = d at htells
  generalize x.juncture = jx at htells hjumped
  have transferred : ∀ {pc jumped}, jx = .transferring pc jumped →
      (event = .jump ∨ event = .branch) →
      ((Juncture.transferring pc jumped).jumps x.thread.frame = true ↔ x.Jumps xs) := by
    intro pc jumped hj he
    show jumped = true ↔ _
    rw [hjumped pc jumped hj]
    constructor
    · rintro (he | ⟨he, p, hp, hd⟩)
      · exact .jump ha (hevent.trans he)
      · exact .branch ha (hevent.trans he) hp hd
    · intro hj
      cases hj with
      | jump _ he => exact Or.inl (hevent.symm.trans he)
      | branch _ he hp hd => exact Or.inr ⟨hevent.symm.trans he, _, hp, hd⟩
      | handler _ he =>
          rw [hevent] at he
          rcases ‹event = .jump ∨ event = .branch› with h | h <;> rw [h] at he <;> cases he
  cases htells with
  | start | resume =>
      show x.thread.frame.jumped = true ↔ _
      rw [hentered rfl]
      exact ⟨nofun, no (by simp [hevent]) (by simp [hevent]) (by simp [hevent])⟩
  | handle e =>
      show x.thread.frame.jumped = true ↔ _
      exact ⟨fun _ => .handler ha hevent, fun _ => hhandled rfl⟩
  | jump => exact transferred rfl (Or.inl rfl)
  | pass | branch => exact transferred rfl (Or.inr rfl)
  | _ => exact ⟨nofun, no (by simp [hevent]) (by simp [hevent]) (by simp [hevent])⟩

/-- Nothing is turned to, and control is not directed, while an instruction works. -/
theorem directs_of_works (hr : x.thread.Reports x.occurrence x.juncture)
    (hj : x.juncture.works = true) :
    x.event.directs = false ∧ (x.event = .instruction ∨ x.begins = false) := by
  have htells := hr.tells
  unfold begins
  have hevent : x.event = x.occurrence.event := rfl
  rw [hevent]
  generalize x.occurrence.event = event at htells
  generalize x.occurrence.payload.detail = d at htells
  generalize x.juncture = jx at htells hj
  cases htells with
  | instruction => exact ⟨rfl, Or.inl rfl⟩
  | call | nativeReturn | nativeRaise | stop => exact ⟨rfl, Or.inr rfl⟩
  | _ => cases hj

/-- Whatever is reported in the middle of an instruction: the instruction was reported. -/
theorem Recounts.started_next (h : Recounts xs x.thread x.occurrence x.juncture)
    (hr : x.thread.Reports x.occurrence x.juncture) (ha : x.answer = .ok ())
    (hj : x.juncture.works = true) : Started (xs ++ [x]) x.thread.frame.pc := by
  have hstarted := h.started
  have hworks := (directs_of_works hr hj).2
  rcases hworks with he | hb
  · exact started_concat_self he ha
  · refine (hstarted ?_).concat hb
    have htells := hr.tells
    have hb' : x.occurrence.event.begins = false := hb
    generalize x.occurrence.event = event at htells hb' ⊢
    generalize x.occurrence.payload.detail = d at htells
    generalize x.juncture = jx at htells hj
    cases htells with
    | instruction => cases hb'
    | call | nativeReturn | nativeRaise | stop => rfl
    | _ => cases hj

/-- The branch that a frame reports next knows whether it jumps. -/
theorem Recounts.jumped_next (h : Recounts xs x.thread x.occurrence x.juncture)
    (hr : x.thread.Reports x.occurrence x.juncture)
    (hcloses : x.juncture.closes x.answer = false) (hnext : x.next = .reporting t o j)
    {pc : ℕ} {jumped : Bool} (hj : j = .transferring pc jumped) :
    jumped = true ↔ o.event = .jump ∨ (o.event = .branch ∧
      ∃ p, latestBegin? (xs ++ [x]) = some p ∧ p.thread.frame.Diverts p.heap t.frame.stack) := by
  subst hj
  have hsound := sound_next (x := x) hr
  rw [hnext] at hsound
  have htells : t.frame.Tells o.event o.payload.detail (.transferring pc jumped) := hsound.tells
  rcases htells.at_transferring.1 with ho | ho
  · rw [ho] at htells
    refine ⟨fun _ => Or.inl ho, fun _ => ?_⟩
    generalize o.payload.detail = d at htells
    cases htells
    rfl
  · have hbranch := (Thread.branches_resume (h := x.heap) hcloses).kind t o pc jumped hnext ho
    obtain ⟨hok, hfrom⟩ := hbranch
    have hno : o.event ≠ .jump := by
      rw [ho]
      exact nofun
    rcases hfrom with ⟨hjx, hdiverts⟩ | ⟨hjx, hjumped, hstack⟩
    · have hb : x.begins = true := by
        rw [begins, (tells_juncture hr hjx).at_instruction.1]
        rfl
      rw [hdiverts]
      refine ⟨fun hd => Or.inr ⟨ho, x, by rw [latestBegin?_concat, if_pos hb], hd⟩, ?_⟩
      rintro (hjump | ⟨-, p, hp, hd⟩)
      · exact absurd hjump hno
      · rw [latestBegin?_concat, if_pos hb, Option.some.injEq] at hp
        rwa [hp]
    · have htellsx := tells_juncture hr hjx
      have hevent : x.event = x.occurrence.event := rfl
      obtain ⟨he, l, hi⟩ : x.event = .stopIteration ∧
          ∃ l, x.thread.frame.current? = some (.forIter l) := by
        generalize x.event = event at htellsx
        generalize x.occurrence.payload.detail = d at htellsx
        cases htellsx with
        | stop hi => exact ⟨rfl, _, hi⟩
      obtain ⟨p, hp, hframe⟩ := h.stopped (hevent.symm.trans he)
      have hb : x.begins = false := by
        rw [begins, he]
        rfl
      refine ⟨fun _ => Or.inr ⟨ho, p, ?_, ?_⟩, fun _ => hjumped⟩
      · rw [latestBegin?_concat, hb]
        exact hp
      · rw [hframe, Frame.diverts_forIter hi, hstack]

/-- What is reported behind a line is its instruction, or the fault of a callback. -/
theorem next_of_line (hr : x.thread.Reports x.occurrence x.juncture) (hjx : x.juncture = .line) :
    x.event = .line ∧
      ((x.answer = .ok () ∧ x.next = x.thread.begin) ∨
        ∃ f, x.answer = .error f ∧ x.next = x.thread.raise f) := by
  refine ⟨(tells_juncture hr hjx).at_line, ?_⟩
  cases ha : x.answer with
  | ok u =>
      refine Or.inl ⟨rfl, ?_⟩
      rw [next, hjx, ha]
      rfl
  | error f =>
      refine Or.inr ⟨f, rfl, ?_⟩
      rw [next, hjx, ha]
      rfl

/-- The journal goes on agreeing behind the report of a line. -/
theorem Recounts.next_of_line (h : Recounts xs x.thread x.occurrence x.juncture)
    (hr : x.thread.Reports x.occurrence x.juncture) (hjx : x.juncture = .line)
    (hnext : x.next = .reporting t o j) : Recounts (xs ++ [x]) t o j := by
  obtain ⟨hline, hcases⟩ := Exchange.next_of_line hr hjx
  have hlast := h.lastLine_eq
  have hb : x.begins = true := by
    rw [begins, hline]
    rfl
  have hdirects : x.event.directs = false := by
    rw [hline]
    rfl
  rcases hcases with ⟨ha, hbegin⟩ | ⟨f, ha, hraise⟩
  · rw [hnext] at hbegin
    cases hbegin
    refine ⟨?_, nofun, fun _ => Or.inl ⟨xs, x, rfl, hline, ha, rfl, rfl⟩, nofun, nofun, nofun,
      nofun, nofun, ?_, ?_⟩
    · -- the line is that of the instruction already
      have hmemory := h.memory
      rw [if_pos (show x.occurrence.event.begins = true from hb)] at hmemory
      rw [if_pos (show Event.instruction.begins = true from rfl), ← hlast, hmemory]
      exact (Code.lineAfter_lineAfter ..).symm
    · intro before y hxs _
      obtain rfl := last_eq hxs
      refine ⟨rfl, fun _ => rfl, fun f hf => ?_⟩
      rw [ha] at hf
      cases hf
    · intro before y hxs hyes
      obtain rfl := last_eq hxs
      rw [hdirects] at hyes
      cases hyes
  · rw [hnext] at hraise
    cases hraise
    refine ⟨hlast, nofun, nofun, nofun, nofun, nofun, nofun,
      fun _ => Or.inr ⟨xs, x, f, rfl, ha⟩, ?_, ?_⟩
    · intro before y hxs _
      obtain rfl := last_eq hxs
      refine ⟨rfl, fun hok => ?_, fun _ _ => rfl⟩
      rw [ha] at hok
      cases hok
    · intro before y hxs hyes
      obtain rfl := last_eq hxs
      rw [hdirects] at hyes
      cases hyes

/-- **The journal of a frame that goes on goes on agreeing.** -/
theorem Recounts.next (h : Recounts xs x.thread x.occurrence x.juncture) (hx : x.report.Valid)
    (hcloses : x.juncture.closes x.answer = false) (hnext : x.next = .reporting t o j)
    (hentered : j ≠ .entered) : Recounts (xs ++ [x]) t o j := by
  have hr : x.thread.Reports x.occurrence x.juncture := hx.1
  by_cases hline : x.juncture = .line
  · exact h.next_of_line hr hline hnext
  have hbuilt : x.thread.frame.code.Built :=
    (hx.2 x.thread.top (List.mem_cons_self ..)).frame.built
  have hminds := Thread.minds_resume hbuilt x.heap hline hcloses
  have honward := onward_next hx hline hcloses hnext hentered
  have hlast := h.lastLine_eq
  rw [hlast] at hminds
  have behind : ∀ before y, xs ++ [x] = before ++ [y] → y.event = .line → t = y.thread ∧
      (y.answer = .ok () → o.event = .instruction) ∧
        ∀ f, y.answer = .error f → o.event = .raise := by
    intro before y hxs he
    obtain rfl := last_eq hxs
    exact absurd (tells_event hr he).of_line hline
  have hmoved : o.event.opensFrame = false := by
    have hsound := sound_next (x := x) hr
    rw [hnext] at hsound
    have htells : t.frame.Tells o.event o.payload.detail j := hsound.tells
    exact Bool.eq_false_iff.2 fun hyes => hentered ((Thread.opensFrame_iff htells).1 hyes)
  have hopens : o.event.opensFrame = true → t.frame.jumped = false := by
    intro hyes
    rw [hmoved] at hyes
    cases hyes
  have hjumped : ∀ pc jumped, j = .transferring pc jumped → _ :=
    fun pc jumped hj => h.jumped_next hr hcloses hnext hj
  have hkept : o.event.begins = false → t.frame.lastLine =
      if o.event.begins then t.frame.code.lineAfter t.frame.pc (latestLine (xs ++ [x]))
      else latestLine (xs ++ [x]) := by
    intro hno
    rw [hno]
    exact hminds.kept t o j hnext hno hentered
  -- where control is directed without a fault, an instruction is turned to
  have hdirected : (x.answer = .ok () → x.juncture.works = true ∨ x.event = .raise) →
      ∀ before y, xs ++ [x] = before ++ [y] → y.event.directs = true → y.answer = .ok () →
        o.event.begins = true := by
    intro hworks before y hxs hyes hok
    obtain rfl := last_eq hxs
    rcases hworks hok with hj | he
    · rw [(directs_of_works hr hj).1] at hyes
      cases hyes
    · rw [he] at hyes
      cases hyes
  cases honward with
  | begins ho hl =>
      obtain ⟨hmemory, hiff, htold⟩ := hminds.turned t o j hnext ho
      have hok : x.answer = .ok () := by
        cases hl <;> assumption
      have hnews : (x.juncture.jumps x.thread.frame = true) = ReachedByJump (xs ++ [x]) :=
        propext (h.jumps_iff hr hok)
      rw [hnews] at hiff
      have hno : ∀ {e : Event}, e.begins = false → o.event ≠ e := by
        rintro e he rfl
        rw [he] at ho
        cases ho
      refine ⟨by rw [if_pos ho]; exact hmemory, hopens,
        fun _ => Or.inr ⟨arrived_concat hl, hiff, htold⟩, ?_, hjumped,
        fun he => absurd he (hno rfl), fun he => absurd he (hno rfl),
        fun he => absurd he (hno rfl), behind, fun _ _ _ _ _ => ho⟩
      intro hinside
      rw [Event.isInside_eq_false ho] at hinside
      cases hinside
  | works ho hstop ha hj hpc =>
      have hno : o.event.begins = false ∧ o.event ≠ .exceptionHandled ∧ o.event ≠ .raise := by
        cases he : o.event <;> rw [he] at ho <;>
          first | exact absurd ho Bool.false_ne_true | exact ⟨rfl, nofun, nofun⟩
      have hbegins : ¬ o.event.begins = true := Bool.eq_false_iff.1 hno.1
      have hstarted : Started (xs ++ [x]) t.frame.pc := by
        rw [hpc]
        exact h.started_next hr ha hj
      exact ⟨hkept hno.1, hopens, fun hyes => absurd hyes hbegins,
        fun _ => hstarted, hjumped, fun he => absurd he hstop, fun he => absurd he hno.2.1,
        fun he => absurd he hno.2.2, behind, hdirected fun _ => Or.inl hj⟩
  | raises ho hfrom =>
      have hno : ∀ {P : Event → Prop}, P o.event → ¬ P .raise → False := by
        intro P hyes hraise
        rw [ho] at hyes
        exact hraise hyes
      refine ⟨hkept (by rw [ho]; rfl), hopens,
        fun hyes => (hno (P := (·.begins = true)) hyes nofun).elim,
        fun hyes => (hno (P := (·.isInside = true)) hyes nofun).elim, hjumped,
        fun he => (hno (P := (· = _)) he nofun).elim, fun he => (hno (P := (· = _)) he nofun).elim,
        fun _ => ?_, behind, hdirected fun hok => ?_⟩
      · rcases hfrom with ⟨f, hf⟩ | ⟨ha, hj, hpc⟩
        · exact Or.inr ⟨xs, x, f, rfl, hf⟩
        · rw [hpc]
          exact Or.inl (h.started_next hr ha hj)
      · rcases hfrom with ⟨f, hf⟩ | ⟨-, hj, -⟩
        · rw [hok] at hf
          cases hf
        · exact Or.inl hj
  | resolves ho hjx hhandled =>
      have hno : o.event.begins = false ∧ o.event.isInside = false ∧ o.event ≠ .stopIteration ∧
          o.event ≠ .raise := by
        cases he : o.event <;> rw [he] at ho <;>
          first | exact absurd ho Bool.false_ne_true | exact ⟨rfl, rfl, by decide, by decide⟩
      obtain ⟨e, hjx⟩ := hjx
      exact ⟨hkept hno.1, hopens, fun hyes => absurd hyes (Bool.eq_false_iff.1 hno.1),
        fun hyes => absurd hyes (Bool.eq_false_iff.1 hno.2.1), hjumped,
        fun he => absurd he hno.2.2.1,
        hhandled, fun he => absurd he hno.2.2.2, behind,
        hdirected fun _ => Or.inr (tells_juncture hr hjx).at_raised⟩

/-- A frame that begins to wait for another one agrees with its journal. -/
theorem Recounts.awaits (h : Recounts xs x.thread x.occurrence x.juncture)
    (hr : x.thread.Reports x.occurrence x.juncture) (ha : x.answer = .ok ())
    {callee : Activation} (he : x.thread.Enters x.heap x.juncture callee) :
    Awaits (xs ++ [x]) x.thread.top := by
  have hworks : x.juncture.works = true := by
    generalize x.juncture = jx at he
    cases he <;> rfl
  refine ⟨⟨xs, x, rfl, ha, rfl, ?_⟩, h.lastLine_eq, h.started_next hr ha hworks⟩
  generalize hjx : x.juncture = jx at he
  cases he with
  | call _ hi =>
      have htells := tells_juncture hr hjx
      refine Or.inr ⟨?_, _, hi⟩
      generalize x.event = event at htells
      generalize x.occurrence.payload.detail = d at htells
      cases htells
      rfl
  | loop => exact Or.inl (tells_juncture hr hjx).at_instruction.1

/-- **A frame that is entered agrees with its journal** if it remembers the line: it has been
entered never before, or has been left by a yield. -/
theorem recounts_enter {t : Thread} (hlast : t.frame.lastLine = latestLine xs)
    (hjumped : t.frame.jumped = false)
    (hyield : ∀ before y, xs = before ++ [y] → y.event = .frameYield) {t' : Thread}
    {o : Occurrence} {j : Juncture} (h : t.enter = .reporting t' o j) : Recounts xs t' o j := by
  have hopens : o.event.opensFrame = true := by
    have hyes := Thread.opens_enter t
    rw [h] at hyes
    exact hyes
  obtain ⟨hbegins, hinside, hraise, hhandled, hstop⟩ : o.event.begins = false ∧
      o.event.isInside = false ∧ o.event ≠ .raise ∧ o.event ≠ .exceptionHandled ∧
      o.event ≠ .stopIteration := by
    cases he : o.event <;> rw [he] at hopens <;>
      first | exact absurd hopens Bool.false_ne_true | exact ⟨rfl, rfl, nofun, nofun, nofun⟩
  obtain ⟨hframe, hj⟩ : t'.frame = { t.frame with started := true } ∧ j = .entered := by
    cases h
    exact ⟨rfl, rfl⟩
  refine ⟨?_, fun _ => ?_, fun hyes => absurd hyes (Bool.eq_false_iff.1 hbegins),
    fun hyes => absurd hyes (Bool.eq_false_iff.1 hinside), fun pc jumped hno => ?_,
    fun he => absurd he hstop, fun he => absurd he hhandled, fun he => absurd he hraise,
    fun before y hxs he => ?_, fun before y hxs hyes => ?_⟩
  · rw [hbegins, hframe]
    exact hlast
  · rw [hframe]
    exact hjumped
  · rw [hj] at hno
    cases hno
  · rw [hyield before y hxs] at he
    cases he
  · rw [hyield before y hxs] at hyes
    cases hyes

section Waiting

variable {a : Activation} {caller : Thread}

/-- The last report of a frame that waits was that of an instruction or of a call. -/
theorem Awaits.of_append (h : Awaits xs a) {before : List Exchange} {y : Exchange}
    (hxs : xs = before ++ [y]) : y.answer = .ok () ∧ y.thread.frame = a.frame ∧
      (y.event = .instruction ∨ (y.event = .call ∧ ∃ n, a.frame.current? = some (.call n))) := by
  obtain ⟨before', y', hxs', hok, htop, hevent⟩ := h.last
  obtain rfl := last_eq (hxs'.symm.trans hxs)
  exact ⟨hok, congrArg Activation.frame htop, hevent⟩

/-- So it was no line, and control was not directed. -/
theorem Awaits.not_line (h : Awaits xs a) {before : List Exchange} {y : Exchange}
    (hxs : xs = before ++ [y]) : y.event ≠ .line ∧ y.event.directs = false := by
  obtain ⟨-, -, he | ⟨he, -⟩⟩ := h.of_append hxs <;> rw [he] <;> exact ⟨nofun, rfl⟩

/-- Nor was there a jump. -/
theorem Awaits.not_reachedByJump (h : Awaits xs a) : ¬ ReachedByJump xs := by
  obtain ⟨before, y, rfl, -, -, hevent⟩ := h.last
  rw [reachedByJump_concat]
  intro hjumps
  cases hjumps with
  | jump _ he | branch _ he | handler _ he =>
      rcases hevent with hi | ⟨hi, -⟩ <;> rw [he] at hi <;> cases hi

/-- The latest instruction of a frame that waits at a loop is the loop. -/
theorem Awaits.latestBegin?_of_loop (h : Awaits xs a) {l : Label}
    (hl : a.frame.current? = some (.forIter l)) :
    ∃ y, latestBegin? xs = some y ∧ y.thread.frame = a.frame := by
  obtain ⟨before, y, rfl, -, htop, hevent⟩ := h.last
  rcases hevent with hi | ⟨-, n, hn⟩
  · refine ⟨y, ?_, congrArg Activation.frame htop⟩
    rw [latestBegin?_concat, if_pos (show y.begins = true by rw [begins, hi]; rfl)]
  · rw [hl] at hn
    cases hn

/-- A frame that waits at an instruction with a target waits at a loop. -/
theorem loop_of_awaited {i : Instruction} {l : Label} (h : x.thread.top.AwaitedBy a)
    (hi : a.frame.current? = some i) (hl : i.target? = some l) :
    ∃ l', a.frame.current? = some (.forIter l') := by
  unfold Activation.AwaitedBy at h
  split at h
  · obtain ⟨n, hcall⟩ := h
    rw [hi, Option.some.injEq] at hcall
    rw [hcall] at hl
    cases hl
  · obtain ⟨l', _, _, hforIter, -⟩ := h
    exact ⟨l', hforIter⟩

/-- When the frame above is left, only a loop transfers control, since a generator has yielded, and
it goes on then. -/
theorem Awaits.jumped_next (h : Awaits xs caller.top) (hx : x.report.Valid)
    (hcloses : x.juncture.closes x.answer = true) (hp : x.thread.pop? = some caller)
    (hnext : x.next = .reporting t o j) {pc : ℕ} {jumped : Bool} (hj : j = .transferring pc jumped)
    {i : Instruction} {l : Label} (hi : caller.frame.current? = some i)
    (hl : i.target? = some l) :
    jumped = true ↔ o.event = .jump ∨ (o.event = .branch ∧
      ∃ p, latestBegin? xs = some p ∧ p.thread.frame.Diverts p.heap t.frame.stack) := by
  subst hj
  have hsound := sound_next (x := x) hx.1
  rw [hnext] at hsound
  have htells : t.frame.Tells o.event o.payload.detail (.transferring pc jumped) := hsound.tells
  rcases htells.at_transferring.1 with he | he
  · refine ⟨fun _ => Or.inl he, fun _ => ?_⟩
    rw [he] at htells
    generalize o.payload.detail = d at htells
    cases htells
    rfl
  · obtain ⟨hpasses, v, hstack⟩ := (Thread.branches_of_closes (h := x.heap) hp hcloses).kind t o
      pc jumped hnext he
    obtain ⟨l', hforIter⟩ := loop_of_awaited (hx.1.sound.pop? hp).1 hi hl
    obtain ⟨y, hlatest, hframe⟩ : ∃ y, latestBegin? xs = some y ∧ y.thread.frame = caller.frame :=
      h.latestBegin?_of_loop hforIter
    rw [hpasses]
    refine ⟨nofun, ?_⟩
    rintro (hjump | ⟨-, p, hp, hdiverts⟩)
    · rw [he] at hjump
      cases hjump
    · -- the stack has the value on top of what the loop has found, so that the loop goes on
      rw [hlatest, Option.some.injEq] at hp
      rw [← hp, Frame.diverts_forIter (l := l') (by rw [hframe]; exact hforIter), hstack,
        hframe] at hdiverts
      have hlength := congrArg List.length hdiverts
      simp only [List.length_cons, List.length_tail] at hlength
      omega

/-- **The journal of a frame that has waited goes on agreeing** when the frame above it is left. -/
theorem Awaits.recounts (h : Awaits xs caller.top) (hx : x.report.Valid)
    (hcloses : x.juncture.closes x.answer = true) (hp : x.thread.pop? = some caller)
    (hnext : x.next = .reporting t o j) : Recounts xs t o j := by
  have hsound := sound_next (x := x) hx.1
  rw [hnext] at hsound
  have htells : t.frame.Tells o.event o.payload.detail j := hsound.tells
  have hmem : caller.top ∈ x.thread.pile := by
    rw [Thread.pile, (Thread.pile_of_pop? hp).1]
    exact List.mem_cons_of_mem _ (List.mem_cons_self ..)
  have hminds := Thread.minds_of_closes (hx.2 _ hmem).frame.built hp x.heap hcloses
  have hresumes := resumes_next hx hcloses hp hnext
  have hmemory : caller.frame.lastLine = latestLine xs := h.memory
  rw [hmemory] at hminds
  have behind : ∀ before y, xs = before ++ [y] → y.event = .line → t = y.thread ∧
      (y.answer = .ok () → o.event = .instruction) ∧ ∀ f, y.answer = .error f → o.event = .raise :=
    fun _ _ hxs he => absurd he (h.not_line hxs).1
  have directed : ∀ before y, xs = before ++ [y] → y.event.directs = true → y.answer = .ok () →
      o.event.begins = true := by
    intro before y hxs hyes
    rw [(h.not_line hxs).2] at hyes
    cases hyes
  have hkept : o.event.begins = false → o.event.opensFrame = false → t.frame.lastLine =
      if o.event.begins then t.frame.code.lineAfter t.frame.pc (latestLine xs)
      else latestLine xs := by
    intro hno hopens
    rw [hno]
    refine hminds.kept t o j hnext hno fun hj => ?_
    rw [(Thread.opensFrame_iff htells).2 hj] at hopens
    cases hopens
  cases hresumes with
  | begins ho hi htarget hpc =>
      obtain ⟨hmem, hiff, htold⟩ := hminds.turned t o j hnext ho
      have hnews : (false = true) = ReachedByJump xs := by
        simp [h.not_reachedByJump]
      rw [hnews] at hiff
      have harrived : Arrived xs t.frame.pc := by
        obtain ⟨before, y, rfl, -⟩ := h.last
        obtain ⟨hok, hframe, hevent⟩ := h.of_append rfl
        have hdone : y.event = .instruction ∨ y.event = .call ∨ y.event = .nativeReturn :=
          hevent.imp_right fun hcall => Or.inl hcall.1
        refine arrived_concat (.done hok hdone ?_ htarget ?_)
        · rw [hframe]
          exact hi
        · rw [hframe]
          exact hpc
      have hno : ∀ {e : Event}, e.begins = false → o.event ≠ e := by
        rintro e he rfl
        rw [he] at ho
        cases ho
      refine ⟨by rw [if_pos ho]; exact hmem, fun hyes => ?_,
        fun _ => Or.inr ⟨harrived, hiff, htold⟩, fun hyes => ?_, ?_,
        fun he => absurd he (hno rfl), fun he => absurd he (hno rfl),
        fun he => absurd he (hno rfl), behind, directed⟩
      · cases he : o.event <;> rw [he] at ho hyes <;>
          first | exact absurd ho Bool.false_ne_true | exact absurd hyes Bool.false_ne_true
      · rw [Event.isInside_eq_false ho] at hyes
        cases hyes
      · rintro pc jumped rfl
        rcases htells.at_transferring.1 with he | he <;> rw [he] at ho <;> cases ho
  | works ho hpc hsame htarget =>
      have hno : o.event.begins = false ∧ o.event.opensFrame = false ∧
          o.event ≠ .exceptionHandled ∧ o.event ≠ .raise := by
        cases he : o.event <;> rw [he] at ho <;>
          first | exact absurd ho Bool.false_ne_true | exact ⟨rfl, rfl, by decide, by decide⟩
      obtain ⟨hbegins, hopens, hhandled, hraise⟩ := hno
      have hstarted : Started xs t.frame.pc := by
        rw [hpc]
        exact h.started
      refine ⟨hkept hbegins hopens, fun hyes => ?_, fun hyes => ?_, fun _ => hstarted,
        fun pc jumped hj => ?_, fun he => ?_, fun he => absurd he hhandled,
        fun he => absurd he hraise, behind, directed⟩
      · rw [hopens] at hyes
        cases hyes
      · rw [hbegins] at hyes
        cases hyes
      · obtain ⟨i, l, hi, hl⟩ := htarget pc jumped hj
        exact h.jumped_next hx hcloses hp hnext hj hi hl
      · have hsame := hsame he
        rw [he] at htells
        generalize o.payload.detail = d at htells
        cases htells with
        | stop hi =>
            rw [hsame] at hi
            obtain ⟨y, hlatest, hframe⟩ := h.latestBegin?_of_loop hi
            exact ⟨y, hlatest, hframe.trans hsame.symm⟩
  | raises ho hpc =>
      have hno : ∀ {e : Event}, e ≠ .raise → o.event ≠ e := by
        rintro e he rfl
        exact he ho
      obtain ⟨hbegins, hopens, hinside⟩ : o.event.begins = false ∧ o.event.opensFrame = false ∧
          o.event.isInside = false := by
        rw [ho]
        exact ⟨rfl, rfl, rfl⟩
      refine ⟨hkept hbegins hopens, fun hyes => ?_, fun hyes => ?_, fun hyes => ?_, ?_,
        fun he => absurd he (hno (by decide)), fun he => absurd he (hno (by decide)),
        fun _ => Or.inl ?_, behind, directed⟩
      · rw [hopens] at hyes
        cases hyes
      · rw [hbegins] at hyes
        cases hyes
      · rw [hinside] at hyes
        cases hyes
      · rintro pc jumped rfl
        rcases htells.at_transferring.1 with he | he <;> exact absurd he (hno (by decide))
      · rw [hpc]
        exact h.started

end Waiting

end Agreeing

end Exchange

end Tracepoint
