/-
**The reports of an activation tell where control goes.**

Whoever follows the instructions that an activation reports can tell from the other reports how it
has got from one to the next.  An instruction that is done leads to the one behind it.  One that
names a target reports where it goes, in a jump or a branch, before it gets there.  And one that
raises an exception goes where the handling of the exception is reported.

The argument follows the reports of an activation one after the other.  At first the instruction
works, and nothing is reported that would tell where control goes; then it has failed, or it is
clear at which instruction the activation arrives next.  What others report in between, which the
instruction calls or asks for an item, does not matter for this.

Main definitions:

* `Tracepoint.Exchange.Caught`, `Tracepoint.Exchange.Transferred`, `Tracepoint.Exchange.Passed` —
  the three ways from an instruction to the next one;
* `Tracepoint.Exchange.Stage` — how far an activation is on such a way;
* `Tracepoint.Exchange.TellsControl` — **reports tell where control goes**.

Main results:

* `Tracepoint.Exchange.Stage.next` — one report more on the way;
* `Tracepoint.Exchange.tellsControl_of_isChain` — exchanges that follow each other tell where
  control goes;
* `Tracepoint.Machine.events_tell_control` — **every activation of built code tells where control
  goes**.
-/

import Tracepoint.Proofs.Control.Bounds
import Tracepoint.Proofs.Control.Succession

set_option relaxedAutoImplicit false
set_option autoImplicit false

namespace Tracepoint

variable {σ : Type}

/-! ### Arriving at an instruction -/

/-- The instruction that is reported next, as far as it is clear at a juncture. -/
def Juncture.due? (f : Frame) : Juncture → Option ℕ
  | .line => some f.pc
  | j => (j.arrival? f).map Frame.pc

/-- Where an instruction goes on, it is not yet clear. -/
theorem Juncture.due?_of_works {j : Juncture} (h : j.works = true) (f : Frame) :
    j.due? f = none := by
  cases j <;> first | rfl | cases h

namespace Thread

/-- A thread reports the line of its instruction or the instruction itself. -/
inductive Begins (t : Thread) : Activity → Prop
  | line {t' : Thread} (ha : t.Alike t') {n : ℕ} : Begins t (t'.report .line (.line n) .line)
  | instruction {t' : Thread} (ha : t.Alike t') : Begins t t'.begin

/-- A thread turns to its instruction, if there is one, by reporting it. -/
theorem begins_fetch {t : Thread} {i : Instruction} (hi : t.frame.current? = some i) :
    t.Begins t.fetch := by
  have hfetches := t.fetches_fetch
  generalize t.fetch = a at hfetches
  cases hfetches with
  | lost hnone =>
      rw [hi] at hnone
      cases hnone
  | line => exact .line (alike_withFrame (t.frame.alike_line _ _))
  | instruction => exact .instruction (alike_withFrame (t.frame.alike_line _ _))

end Thread

/-- Exactly one of three statements holds. -/
def ExactlyOne (a b c : Prop) : Prop :=
  (a ∧ ¬ b ∧ ¬ c) ∨ (¬ a ∧ b ∧ ¬ c) ∨ (¬ a ∧ ¬ b ∧ c)

namespace Exchange

/-- Where an exchange was made. -/
def offset (x : Exchange) : ℕ := x.occurrence.payload.offset

/-- It was reported that control is transferred. -/
def transfers (x : Exchange) : Bool := x.event == .jump || x.event == .branch

/-- The instruction that the activation reports next, as far as this is clear. -/
def due? (x : Exchange) : Option ℕ := x.juncture.due? x.thread.frame

section Arriving

variable {y x : Exchange} {pc : ℕ}

theorem offset_eq (hx : x.report.Valid) : x.offset = offsetOf x.thread.frame.pc :=
  hx.1.offset

/-- An exchange with which a thread begins an instruction is at the instruction. -/
theorem of_begins {t : Thread} (h : t.Begins x.report) :
    t.Alike x.thread ∧ ((x.event = .line ∧ x.juncture = .line) ∨ x.event = .instruction) := by
  generalize hreport : x.report = a at h
  cases h with
  | line ha =>
      obtain ⟨hthread, hoccurrence, hjuncture⟩ := Activity.reporting.inj hreport
      rw [hthread]
      exact ⟨ha, Or.inl ⟨congrArg Occurrence.event hoccurrence, hjuncture⟩⟩
  | instruction ha =>
      obtain ⟨hthread, hoccurrence, -⟩ := Activity.reporting.inj hreport
      rw [hthread]
      exact ⟨ha, Or.inr (congrArg Occurrence.event hoccurrence)⟩

/-- **Where an instruction is due, it is reported next**, after its line perhaps. -/
theorem Succeeds.of_due (h : y.Succeeds x) (hy : y.report.Valid) (hdue : y.due? = some pc) :
    x.thread.frame.pc = pc ∧ ((x.event = .line ∧ x.due? = some pc) ∨ x.event = .instruction) := by
  have hvalid : y.thread.frame.Valid := (hy.2 y.thread.top (List.mem_cons_self ..)).frame
  have begun : ∀ {t : Thread}, t.Begins x.report → t.frame.pc = pc →
      x.thread.frame.pc = pc ∧
        ((x.event = .line ∧ x.due? = some pc) ∨ x.event = .instruction) := by
    intro t hbegins hpc
    obtain ⟨halike, hevent⟩ := of_begins hbegins
    have hx : x.thread.frame.pc = pc := halike.frame.pc.trans hpc
    refine ⟨hx, hevent.imp_left fun ⟨hline, hjuncture⟩ => ⟨hline, ?_⟩⟩
    rw [due?, hjuncture]
    exact congrArg some hx
  have hfollows := h.follows
  rw [due?] at hdue
  generalize y.juncture = j at hfollows hdue
  generalize hreport : x.report = a at hfollows begun
  cases hfollows with
  | goes ha =>
      cases ha with
      | @arrives _ f hf hmoves =>
          obtain ⟨i, hi⟩ := (hvalid.moves hmoves).exists_current
          have hpc : f.pc = pc := by
            cases j <;> simp [Juncture.due?, hf] at hdue <;> first | exact hdue | cases hf
          exact begun (Thread.begins_fetch (t := y.thread.withFrame f) hi) hpc
      | begins hi => exact begun (.instruction (.refl _)) (Option.some.inj hdue)
      | works hj =>
          rw [Juncture.due?_of_works hj] at hdue
          cases hdue
  | resolves hj =>
      rw [hj] at hdue
      cases hdue
  | meets hj | stops hj =>
      rw [Juncture.due?_of_works hj] at hdue
      cases hdue

end Arriving

/-! ### From one instruction to the next -/

/-- An exchange tells nothing of where control goes. -/
def IsQuiet (x : Exchange) : Prop := x.event ≠ .raise ∧ x.transfers = false

section Ways

variable (p : Exchange) (between : List Exchange) (q : ℕ)

/-- The instruction at `p` has raised, and the handling of what was raised last is reported at
`q`. -/
def Caught : Prop :=
  ∃ before raised handled behind, between = before ++ raised :: handled :: behind ∧
    raised.event = .raise ∧ raised.offset = p.offset ∧ (∀ x ∈ behind, x.event ≠ .raise) ∧
    handled.event = .exceptionHandled ∧ handled.offset = q

/-- The instruction at `p` names a target and has not raised, and the one jump or branch that is
reported goes from it to `q`. -/
def Transferred : Prop :=
  (∀ x ∈ between, x.event ≠ .raise) ∧
    (∃ i l, p.thread.frame.current? = some i ∧ i.target? = some l) ∧
    ∃ x, between.filter transfers = [x] ∧ x.offset = p.offset ∧
      x.occurrence.payload.detail = .branch q

/-- The instruction at `p` names no target and has not raised, no jump or branch is reported, and
the one at `q` is the next one. -/
def Passed : Prop :=
  (∀ x ∈ between, x.event ≠ .raise) ∧
    (∃ i, p.thread.frame.current? = some i ∧ i.target? = none) ∧
    (∀ x ∈ between, x.transfers = false) ∧ q = p.offset + 2

/-- **How control has got from one instruction to the next.** -/
def Arrives : Prop := Caught p between q ∨ Transferred p between q ∨ Passed p between q

end Ways

section Ways

variable {p : Exchange} {between : List Exchange} {q : ℕ}

/-- What tells nothing of where control goes may be reported besides. -/
theorem Arrives.concat (h : Arrives p between q) {x : Exchange} (hx : x.IsQuiet) :
    Arrives p (between ++ [x]) q := by
  have noRaise : ∀ {zs : List Exchange}, (∀ z ∈ zs, z.event ≠ .raise) →
      ∀ z ∈ zs ++ [x], z.event ≠ .raise := fun hno =>
    List.forall_mem_append.2 ⟨hno, List.forall_mem_singleton.2 hx.1⟩
  rcases h with ⟨before, raised, handled, behind, rfl, hr, hp, hbehind, hh, hq⟩ |
    ⟨hno, hi, b, hb, hp, hq⟩ | ⟨hno, hi, hquiet, hq⟩
  · exact Or.inl ⟨before, raised, handled, behind ++ [x], by simp, hr, hp, noRaise hbehind, hh, hq⟩
  · refine Or.inr (Or.inl ⟨noRaise hno, hi, b, ?_, hp, hq⟩)
    rw [List.filter_append, hb, List.filter_singleton, hx.2]
    rfl
  · refine Or.inr (Or.inr ⟨noRaise hno, hi, ?_, hq⟩)
    exact List.forall_mem_append.2 ⟨hquiet, List.forall_mem_singleton.2 hx.2⟩

/-- An instruction that was caught has raised. -/
theorem Caught.exists_raise (h : Caught p between q) : ∃ x ∈ between, x.event = .raise := by
  obtain ⟨before, raised, handled, behind, rfl, hr, -⟩ := h
  exact ⟨raised, by simp, hr⟩

/-- **The three ways exclude each other.** -/
theorem Arrives.exactlyOne (h : Arrives p between q) :
    ExactlyOne (Caught p between q) (Transferred p between q) (Passed p between q) := by
  have hcaught : (∀ x ∈ between, x.event ≠ .raise) → ¬ Caught p between q := by
    intro hno hcaught
    obtain ⟨x, hx, hraise⟩ := hcaught.exists_raise
    exact hno x hx hraise
  have hpassed : Transferred p between q → ¬ Passed p between q := by
    rintro ⟨-, ⟨i, l, hi, hl⟩, -⟩ ⟨-, ⟨i', hi', hnone⟩, -⟩
    rw [hi, Option.some.injEq] at hi'
    rw [← hi', hl] at hnone
    cases hnone
  rcases h with h | h | h
  · exact Or.inl ⟨h, fun ht => hcaught ht.1 h, fun hp => hcaught hp.1 h⟩
  · exact Or.inr (Or.inl ⟨hcaught h.1, h, hpassed h⟩)
  · exact Or.inr (Or.inr ⟨hcaught h.1, fun ht => hpassed ht h, h⟩)

end Ways

/-- **How far an activation is on its way** from an instruction to the next one, after an exchange:
the instruction works, it has raised, the next instruction is due, or the activation is left. -/
inductive Stage (p : Exchange) : List Exchange → Exchange → Prop
  | working {between : List Exchange} {y : Exchange} (hquiet : ∀ x ∈ between, x.IsQuiet)
      (ha : p.thread.frame.Alike y.thread.frame) (hj : y.juncture.works = true) :
      Stage p between y
  | raised {between : List Exchange} {y : Exchange} (hquiet : ∀ x ∈ between, x.IsQuiet)
      (hy : y.event = .raise) (hp : y.offset = p.offset) : Stage p (between ++ [y]) y
  | due {between : List Exchange} {y : Exchange} {pc : ℕ} (hpc : y.due? = some pc)
      (ha : Arrives p between (offsetOf pc)) : Stage p between y
  | left {between : List Exchange} {y : Exchange} (hy : y.closes = true) : Stage p between y

section Stage

variable {p y x : Exchange} {between : List Exchange}

/-- The next instruction is reported, or the activation is a stage further. -/
def Steps (p : Exchange) (between : List Exchange) (x : Exchange) : Prop :=
  (x.event = .instruction ∧ Arrives p between x.offset) ∨
    (x.event ≠ .instruction ∧ Stage p (between ++ [x]) x)

/-- Where the next instruction is due, it is reported, or its line. -/
theorem steps_of_due (pc : ℕ) (ha : Arrives p between (offsetOf pc)) (hx : x.report.Valid)
    (hpc : x.thread.frame.pc = pc)
    (hevent : (x.event = .line ∧ x.due? = some pc) ∨ x.event = .instruction) :
    Steps p between x := by
  rcases hevent with ⟨hline, hdue⟩ | hinstruction
  · refine Or.inr ⟨by simp [hline], .due hdue (ha.concat ⟨?_, ?_⟩)⟩
    · simp [hline]
    · simp [transfers, hline]
  · refine Or.inl ⟨hinstruction, ?_⟩
    rw [offset_eq hx, hpc]
    exact ha

/-- An exception that is raised while the instruction works is raised by it. -/
theorem steps_of_raise {t : Thread} {e : Exception} (hquiet : ∀ x ∈ between, x.IsQuiet)
    (hreport : x.report = t.raise e) (hpc : t.frame.pc = p.thread.frame.pc)
    (hp : p.report.Valid) (hx : x.report.Valid) : Steps p between x := by
  obtain ⟨hthread, hoccurrence, -⟩ := Activity.reporting.inj hreport
  have hevent : x.event = .raise := congrArg Occurrence.event hoccurrence
  refine Or.inr ⟨by simp [hevent], .raised hquiet hevent ?_⟩
  rw [offset_eq hx, offset_eq hp, hthread, hpc]

/-- A code unit that was built has the next offset behind an instruction. -/
theorem offset_next (hp : p.report.Valid) {i : Instruction}
    (hi : p.thread.frame.current? = some i) (hn : i.isTerminator = false) :
    offsetOf (p.thread.frame.pc + 1) = p.offset + 2 := by
  have hvalid : p.thread.frame.Valid := (hp.2 p.thread.top (List.mem_cons_self ..)).frame
  rw [offset_eq hp, hvalid.built.offsetOf_eq hvalid.pc,
    hvalid.built.offsetOf_eq (hvalid.built.leads (.next hi hn))]
  omega

/-- What is told while an instruction works, except of the instruction itself, is quiet. -/
theorem isQuiet_of_tells {f : Frame} {d : Detail} (ht : f.Tells x.event d x.juncture)
    (hworks : x.juncture.works = true) (hinside : x.juncture ≠ .instruction) :
    x.IsQuiet ∧ x.event ≠ .instruction := by
  unfold IsQuiet transfers
  generalize x.event = e at ht ⊢
  generalize x.juncture = j at ht hworks hinside
  cases ht with
  | call | nativeReturn | nativeRaise | stop => exact ⟨⟨nofun, rfl⟩, nofun⟩
  | instruction => exact absurd rfl hinside
  | _ => cases hworks

/-- The instruction still works after it has told something in its middle. -/
theorem steps_of_quiet (hquiet : ∀ z ∈ between, z.IsQuiet)
    (ha : p.thread.frame.Alike x.thread.frame) (hx : x.report.Valid)
    (hworks : x.juncture.works = true) (hinside : x.juncture ≠ .instruction) :
    Steps p between x := by
  obtain ⟨hx', hevent⟩ := isQuiet_of_tells hx.1.tells hworks hinside
  refine Or.inr ⟨hevent, .working ?_ ha hworks⟩
  exact List.forall_mem_append.2 ⟨hquiet, List.forall_mem_singleton.2 hx'⟩

/-- An instruction that is done leads to the one behind it. -/
theorem steps_of_passes (hquiet : ∀ z ∈ between, z.IsQuiet)
    (ha : p.thread.frame.Alike y.thread.frame) {f : Frame} {i : Instruction}
    (hf : y.thread.frame.Alike f) (hi : y.thread.frame.current? = some i)
    (hn : i.isTerminator = false) (htarget : i.target? = none)
    (hreport : x.report = (y.thread.withFrame f.advance).fetch) (hp : p.report.Valid)
    (hy : y.report.Valid) (hx : x.report.Valid) : Steps p between x := by
  have hvalid : y.thread.frame.Valid := (hy.2 y.thread.top (List.mem_cons_self ..)).frame
  have hi' : p.thread.frame.current? = some i := ha.current?.symm.trans hi
  have hmoves : y.thread.frame.Moves f.advance := by
    refine hf.goto ?_ false
    rw [hf.pc]
    exact .next hi hn
  obtain ⟨i', hi''⟩ := (hvalid.moves hmoves).exists_current
  have hbegins : (y.thread.withFrame f.advance).Begins x.report := by
    rw [hreport]
    exact Thread.begins_fetch hi''
  obtain ⟨halike, hevent⟩ := of_begins hbegins
  have hpc : x.thread.frame.pc = p.thread.frame.pc + 1 := by
    rw [halike.frame.pc]
    show f.pc + 1 = _
    rw [hf.pc, ha.pc]
  refine steps_of_due (p.thread.frame.pc + 1) ?_ hx hpc (hevent.imp_left ?_)
  · exact Or.inr (Or.inr ⟨fun z hz => (hquiet z hz).1, ⟨i, hi', htarget⟩,
      fun z hz => (hquiet z hz).2, offset_next hp hi' hn⟩)
  · rintro ⟨hline, hjuncture⟩
    refine ⟨hline, ?_⟩
    rw [due?, hjuncture]
    exact congrArg some hpc

/-- An instruction that transfers control reports where it goes. -/
theorem steps_of_transfer (hquiet : ∀ z ∈ between, z.IsQuiet)
    (ha : p.thread.frame.Alike x.thread.frame) {pc : ℕ} {jumped : Bool}
    (hj : x.juncture = .transferring pc jumped)
    (htarget : ∃ i l, p.thread.frame.current? = some i ∧ i.target? = some l)
    (hp : p.report.Valid) (hx : x.report.Valid) : Steps p between x := by
  obtain ⟨hevent, hdetail⟩ := (tells_juncture hx.1 hj).at_transferring
  have htransfers : x.transfers = true := by
    rcases hevent with h | h <;> simp [transfers, h]
  have hfilter : (between ++ [x]).filter transfers = [x] := by
    rw [List.filter_append, List.filter_eq_nil_iff.2 fun z hz => by simp [(hquiet z hz).2],
      List.filter_singleton, htransfers]
    rfl
  have hraise : x.event ≠ .raise := by
    rcases hevent with h | h <;> simp [h]
  have hno : ∀ z ∈ between ++ [x], z.event ≠ .raise :=
    List.forall_mem_append.2 ⟨fun z hz => (hquiet z hz).1, List.forall_mem_singleton.2 hraise⟩
  have hdue : x.due? = some pc := by
    rw [due?, hj]
    rfl
  refine Or.inr ⟨?_, .due hdue (Or.inr (Or.inl ⟨hno, htarget, x, hfilter, ?_, hdetail⟩))⟩
  · rcases hevent with h | h <;> simp [h]
  · rw [offset_eq hx, offset_eq hp, ha.pc]

/-- **While the instruction works**, what it does next is a step on the way. -/
theorem steps_of_performs (hquiet : ∀ z ∈ between, z.IsQuiet)
    (ha : p.thread.frame.Alike y.thread.frame) (hperforms : y.thread.Performs x.report)
    (hp : p.report.Valid) (hy : y.report.Valid) (hx : x.report.Valid)
    (hok : x.answer = .ok ()) : Steps p between x := by
  generalize hreport : x.report = a at hperforms
  cases hperforms with
  | passes hf hi hn htarget =>
      exact steps_of_passes hquiet ha hf hi hn htarget hreport hp hy hx
  | fails hf => exact steps_of_raise hquiet hreport (hf.pc.trans ha.pc) hp hx
  | @tells f e d j hf ht hj htarget =>
      obtain ⟨hthread, hoccurrence, hjuncture⟩ := Activity.reporting.inj hreport
      have halike : p.thread.frame.Alike x.thread.frame := by
        rw [hthread]
        exact ha.trans hf
      cases hmidway : x.juncture with
      | transferring pc jumped =>
          obtain ⟨i, l, hi, hl⟩ := htarget pc jumped (hjuncture.symm.trans hmidway)
          exact steps_of_transfer hquiet halike hmidway ⟨i, l, ha.current?.symm.trans hi, hl⟩ hp hx
      | returning v | yielding v =>
          have hcloses : x.closes = true := by
            rw [closes_eq hx.1, hmidway, hok]
            rfl
          have hevent : x.event ≠ .instruction := fun h => by simp [closes, h] at hcloses
          exact Or.inr ⟨hevent, .left hcloses⟩
      | called | nativeReturned | nativeRaised =>
          refine steps_of_quiet hquiet halike hx ?_ ?_
          · rw [hmidway]
            rfl
          · rw [hmidway]
            exact nofun
      | _ =>
          rw [← hjuncture, hmidway] at hj
          cases hj

/-- **An exception that was raised** is sent to its handler, or the activation is left. -/
theorem steps_of_route (hr : y.event = .raise) (hp : y.offset = p.offset) {e : Exception}
    (hreport : x.report = y.thread.route e) (hx : x.report.Valid) : Steps p (between ++ [y]) x := by
  have hroutes := y.thread.routes_route e
  rw [← hreport] at hroutes
  generalize hroute : x.report = a at hroutes
  cases hroutes with
  | unwinds =>
      obtain ⟨-, hoccurrence, hjuncture⟩ := Activity.reporting.inj hroute
      have hevent : x.event = .frameUnwind := congrArg Occurrence.event hoccurrence
      have hcloses : x.closes = true := by
        rw [closes_eq hx.1, hjuncture]
        rfl
      exact Or.inr ⟨by simp [hevent], .left hcloses⟩
  | handles =>
      obtain ⟨-, hoccurrence, hjuncture⟩ := Activity.reporting.inj hroute
      have hevent : x.event = .exceptionHandled := congrArg Occurrence.event hoccurrence
      have hdue : x.due? = some x.thread.frame.pc := by
        rw [due?, hjuncture]
        rfl
      refine Or.inr ⟨by simp [hevent], .due hdue (Or.inl ?_)⟩
      exact ⟨between, y, x, [], by simp, hr, hp, by simp, hevent, offset_eq hx⟩

/-- **One report more on the way.** -/
theorem Stage.next (h : Stage p between y) (hs : y.Succeeds x) (hp : p.report.Valid)
    (hy : y.report.Valid) (hx : x.report.Valid) (hok : x.answer = .ok ()) :
    Steps p between x := by
  cases h with
  | left hleft =>
      rw [hs.stays] at hleft
      cases hleft
  | due hpc ha =>
      obtain ⟨hpc', hevent⟩ := hs.of_due hy hpc
      exact steps_of_due _ ha hx hpc' hevent
  | raised _ hr hoffset =>
      obtain ⟨e, hj, -⟩ := next_of_raise hy.1 hr
      have hfollows := hs.follows
      rw [hj] at hfollows
      generalize hreport : x.report = a at hfollows
      cases hfollows with
      | goes ha =>
          cases ha with
          | arrives hf => cases hf
          | works hworks => cases hworks
      | resolves => exact steps_of_route hr hoffset hreport hx
      | meets hworks | stops hworks => cases hworks
  | working hquiet ha hworks =>
      have hfollows := hs.follows
      generalize hreport : x.report = a at hfollows
      cases hfollows with
      | goes hgoes =>
          have hperforms := hgoes.performs hworks
          rw [← hreport] at hperforms
          exact steps_of_performs hquiet ha hperforms hp hy hx hok
      | resolves hj =>
          rw [hj] at hworks
          cases hworks
      | meets => exact steps_of_raise hquiet hreport ha.pc hp hx
      | stops =>
          obtain ⟨hthread, -, hjuncture⟩ := Activity.reporting.inj hreport
          rw [← hthread] at ha
          refine steps_of_quiet hquiet ha hx ?_ ?_
          · rw [hjuncture]
            rfl
          · rw [hjuncture]
            exact nofun

end Stage

/-! ### The exchanges of an activation -/

/-- **Exchanges of an activation tell where control goes**: they belong to the activation that `o`
has opened, the first instruction is where it was entered, and each other one is where the one
before it has led, in exactly one of the three ways. -/
structure TellsControl (o : Exchange) (own : List Exchange) : Prop where
  same : ∀ x ∈ own, o.SameActivation x
  first : ∀ before x behind, own = before ++ x :: behind → x.event = .instruction →
    (∀ z ∈ before, z.event ≠ .instruction) → x.offset = o.offset
  arrives : ∀ before p between q behind, own = before ++ p :: (between ++ q :: behind) →
    p.event = .instruction → q.event = .instruction →
    (∀ z ∈ between, z.event ≠ .instruction) →
    ExactlyOne (Caught p between q.offset) (Transferred p between q.offset)
      (Passed p between q.offset)

/-- An exchange of a valid thread that nobody has objected to. -/
structure IsSmooth (x : Exchange) : Prop where
  valid : x.report.Valid
  ok : x.answer = .ok ()

section Chains

variable {xs : List Exchange}

/-- Exchanges that follow each other belong to one activation. -/
theorem Succeeds.same {y x : Exchange} (h : y.Succeeds x) (hy : y.report.Valid)
    (hx : x.report.Valid) : y.SameActivation x := by
  obtain ⟨t, e, d, j, hmoves, -, -, hreport⟩ := h.follows.continues
  obtain ⟨hthread, -, -⟩ := Activity.reporting.inj hreport
  rw [← hthread] at hmoves
  refine ⟨?_, hmoves.generator.symm, hmoves.depth.symm⟩
  rw [Payload.code, Payload.code, hy.1.unit, hx.1.unit, hmoves.frame.address, hmoves.frame.code]

theorem same_of_isChain {o : Exchange} (hchain : List.IsChain Succeeds (o :: xs))
    (ho : o.IsSmooth) (hxs : ∀ x ∈ xs, x.IsSmooth) : ∀ x ∈ xs, o.SameActivation x := by
  induction xs generalizing o with
  | nil => simp
  | cons y xs ih =>
      obtain ⟨hy, hrest⟩ := List.isChain_cons_cons.1 hchain
      have hsmooth := hxs y (List.mem_cons_self ..)
      have hoy := hy.same ho.valid hsmooth.valid
      have hys := ih hrest hsmooth fun x hx => hxs x (List.mem_cons_of_mem _ hx)
      intro x hx
      rcases List.mem_cons.1 hx with rfl | hx
      · exact hoy
      · obtain ⟨hcode, hgenerator, hdepth⟩ := hys x hx
        exact ⟨hoy.1.trans hcode, hoy.2.1.trans hgenerator, hoy.2.2.trans hdepth⟩

/-- **The instruction that is due is the next one** that is reported. -/
theorem pc_of_isChain {y x : Exchange} {pc : ℕ} {before behind : List Exchange}
    (hchain : List.IsChain Succeeds (y :: (before ++ x :: behind))) (hy : y.IsSmooth)
    (hbefore : ∀ z ∈ before, z.IsSmooth ∧ z.event ≠ .instruction) (hdue : y.due? = some pc) :
    x.thread.frame.pc = pc := by
  induction before generalizing y with
  | nil => exact ((List.isChain_cons_cons.1 hchain).1.of_due hy.valid hdue).1
  | cons z before ih =>
      obtain ⟨hz, hrest⟩ := List.isChain_cons_cons.1 hchain
      obtain ⟨hsmooth, hno⟩ := hbefore z (List.mem_cons_self ..)
      obtain ⟨-, ⟨-, hdue'⟩ | hinstruction⟩ := hz.of_due hy.valid hdue
      · exact ih hrest hsmooth (fun z hz => hbefore z (List.mem_cons_of_mem _ hz)) hdue'
      · exact absurd hinstruction hno

/-- **From a stage on the way to the next instruction.** -/
theorem Stage.arrives {p y q : Exchange} {before between behind : List Exchange}
    (h : Stage p before y) (hchain : List.IsChain Succeeds (y :: (between ++ q :: behind)))
    (hp : p.IsSmooth) (hy : y.IsSmooth)
    (hbetween : ∀ z ∈ between, z.IsSmooth ∧ z.event ≠ .instruction) (hq : q.IsSmooth)
    (hinstruction : q.event = .instruction) : Arrives p (before ++ between) q.offset := by
  induction between generalizing before y with
  | nil =>
      have hs := (List.isChain_cons_cons.1 hchain).1
      rcases h.next hs hp.valid hy.valid hq.valid hq.ok with ⟨-, ha⟩ | ⟨hno, -⟩
      · rwa [List.append_nil]
      · exact absurd hinstruction hno
  | cons z between ih =>
      obtain ⟨hs, hrest⟩ := List.isChain_cons_cons.1 hchain
      obtain ⟨hsmooth, hno⟩ := hbetween z (List.mem_cons_self ..)
      rcases h.next hs hp.valid hy.valid hsmooth.valid hsmooth.ok with ⟨hyes, -⟩ | ⟨-, hstage⟩
      · exact absurd hyes hno
      · have harrives := ih hstage hrest hsmooth fun z hz => hbetween z (List.mem_cons_of_mem _ hz)
        rwa [List.append_assoc] at harrives

/-- **Exchanges that follow each other tell where control goes.** -/
theorem tellsControl_of_isChain {o : Exchange} (hopens : o.opens = true)
    (hchain : List.IsChain Succeeds (o :: xs)) (ho : o.IsSmooth)
    (hxs : ∀ x ∈ xs, x.IsSmooth) : TellsControl o xs := by
  refine ⟨same_of_isChain hchain ho hxs, ?_, ?_⟩
  · rintro before x behind rfl hx hbefore
    have hj : o.juncture = .entered := (Thread.opensFrame_iff ho.valid.1.tells).1 hopens
    have hdue : o.due? = some o.thread.frame.pc := by
      rw [due?, hj]
      rfl
    have hpc := pc_of_isChain hchain ho
      (fun z hz => ⟨hxs z (List.mem_append_left _ hz), hbefore z hz⟩) hdue
    rw [offset_eq (hxs x (by simp)).valid, offset_eq ho.valid, hpc]
  · rintro before p between q behind rfl hp hq hbetween
    have hsmooth := hxs p (by simp)
    have htells := tells_event hsmooth.valid.1 hp
    have hstage : Stage p [] p := by
      refine .working (by simp) (.refl _) ?_
      rw [htells.of_instruction]
      rfl
    have hwhole : List.IsChain Succeeds ((o :: before) ++ p :: (between ++ q :: behind)) := hchain
    have hrest : List.IsChain Succeeds (p :: (between ++ q :: behind)) := hwhole.right_of_append
    exact (hstage.arrives hrest hsmooth hsmooth
      (fun z hz => ⟨hxs z (by simp [hz]), hbetween z hz⟩) (hxs q (by simp)) hq).exactlyOne

end Chains

end Exchange

/-! ### Calls -/

namespace Machine

section Call

variable {limit : ℕ} {callable : Value} {args : List Value}
  {k : Except Exception Value → Script σ} {n : ℕ}

/-- The exchanges of a call of built code are those of valid threads. -/
theorem valid_of_mem_exchanges {m : Machine σ} {w : World σ} (hw : w.heap.Loaded)
    {script : Script σ} {i : ℕ} {x : Exchange}
    (hx : x ∈ m.exchanges (m.states (.initial w script) i) n) : x.report.Valid := by
  obtain ⟨j, -, hj⟩ := List.mem_filterMap.1 hx
  rw [exchangeAt?] at hj
  split at hj
  · rw [← states_add] at hj
    exact (m.valid_states hw script (j + i)).report hj
  · cases hj

/-- **Every activation of built code tells where control goes**, as long as no callback objects to
what the call reports: its reports lead from where it was entered to its first instruction, and from
each instruction to the next, whatever else runs in between. -/
theorem events_tell_control (m : Machine σ) {w : World σ} (hw : w.heap.Loaded) (script : Script σ)
    {i : ℕ} (hcall : (m.states (.initial w script) i).focus =
      .script (.call limit callable args k))
    (hn : m.Underway (m.states (.initial w script) i) n)
    (hok : ∀ x ∈ m.exchanges (m.states (.initial w script) i) n, x.answer = .ok ())
    {before behind : List Exchange} {o : Exchange}
    (hsplit : m.exchanges (m.states (.initial w script) i) n = before ++ o :: behind)
    (ho : o.opens = true) : o.TellsControl (Exchange.own o.thread.depth behind) := by
  have hsmooth : ∀ x ∈ before ++ o :: behind, x.IsSmooth := by
    intro x hx
    rw [← hsplit] at hx
    exact ⟨valid_of_mem_exchanges hw hx, hok x hx⟩
  have hopening := hsmooth o (by simp)
  cases n with
  | zero => simp [exchanges] at hsplit
  | succ n =>
      obtain ⟨a, -, hcourse⟩ := exists_course hcall hn
      rw [hsplit] at hcourse
      have hchain := hcourse.of_append.isChain_own (Exchange.sound_next hopening.valid.1)
        (fun x hx => (hsmooth x (by simp [hx])).ok)
        (Exchange.stands_next hopening.valid.1 hopening.ok)
      refine Exchange.tellsControl_of_isChain ho hchain hopening fun x hx => ?_
      have hmem := (List.takeWhile_sublist _).subset (List.mem_filter.1 hx).1
      exact hsmooth x (by simp [hmem])

end Call

/-- The callback objects to nothing. -/
def agreeing : Machine Unit := .of fun _ _ => .answer (.ok .proceed)

/-- The loop over a generator tells where control goes: it is entered, and left when the generator
has returned. -/
theorem looping_tells_control :
    ∃ o behind, agreeing.exchanges (agreeing.states looping 2) 25 = o :: behind ∧
      o.opens = true ∧ o.TellsControl (Exchange.own o.thread.depth behind) ∧
      ((Exchange.own o.thread.depth behind).filter fun x => x.event == .instruction).map
        Exchange.offset = [0, 2, 4, 6, 2, 8, 10] := by
  have hn : agreeing.Underway (agreeing.states looping 2) 25 :=
    underway_of_forall (by decide +kernel)
  have hanswers : ∀ x ∈ agreeing.exchanges (agreeing.states looping 2) 25,
      x.answer.isOk = true := by decide +kernel
  have hok : ∀ x ∈ agreeing.exchanges (agreeing.states looping 2) 25, x.answer = .ok () := by
    intro x hx
    have hanswer := hanswers x hx
    cases ha : x.answer with
    | ok u => rfl
    | error e =>
        rw [ha] at hanswer
        cases hanswer
  obtain ⟨o, behind, hsplit, hopens, hoffsets⟩ : ∃ o behind,
      agreeing.exchanges (agreeing.states looping 2) 25 = o :: behind ∧ o.opens = true ∧
        ((Exchange.own o.thread.depth behind).filter fun x => x.event == .instruction).map
          Exchange.offset = [0, 2, 4, 6, 2, 8, 10] :=
    ⟨_, _, rfl, by decide +kernel, by decide +kernel⟩
  have hfirst : agreeing.exchanges (agreeing.states looping 2) 25 = [] ++ o :: behind := hsplit
  exact ⟨o, behind, hsplit, hopens,
    events_tell_control agreeing loaded_listening _ rfl hn hok hfirst hopens, hoffsets⟩

end Machine

end Tracepoint
