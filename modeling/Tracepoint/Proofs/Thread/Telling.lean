/-
**What threads report, and where control goes.**

A thread reports at junctures, and a juncture occurs only at instructions that can lead to it.
Between two reports a frame stays at its instruction or turns to one that control can go to from
there: the one behind it, the target that it names, or the handler of its exceptions.

Main definitions:

* `Tracepoint.Code.Leads` — where control can go from an instruction;
* `Tracepoint.Frame.Alike`, `Tracepoint.Frame.Moves` — a frame stays at its instruction, and goes
  on;
* `Tracepoint.Frame.Tells` — **what is reported at which juncture**;
* `Tracepoint.Thread.Continues`, `Tracepoint.Thread.Proceeds` — the activation on top of a thread
  goes on and reports;
* `Tracepoint.Thread.Fetches`, `Tracepoint.Thread.Routes` — how it turns to an instruction, and
  where it sends an exception;
* `Tracepoint.Thread.Performs`, `Tracepoint.Thread.Goes` — **how it goes on**, in the middle of an
  instruction and at each juncture.

Main results:

* `Tracepoint.Frame.Tells.leads` — what is told of a transfer of control can happen;
* `Tracepoint.Thread.performs_next`, `Tracepoint.Thread.performs_transfer` and their siblings —
  the ways in which an instruction goes on;
* `Tracepoint.Thread.Goes.proceeds` — control goes where it can go.
-/

import Mathlib.Data.Nat.Notation
import Tracepoint.Machine.Thread

set_option relaxedAutoImplicit false
set_option autoImplicit false

namespace Tracepoint

/-! ### Where control can go -/

/-- Control can go from one instruction to another: to the one behind it, unless control never
goes on there, to the target that it names, or to the handler of its exceptions. -/
inductive Code.Leads (c : Code) (i : ℕ) : ℕ → Prop
  | next {instruction : Instruction} (h : c.instruction? i = some instruction)
      (hn : instruction.isTerminator = false) : Leads c i (i + 1)
  | jump {instruction : Instruction} {l : Label} {target : ℕ}
      (h : c.instruction? i = some instruction) (hl : instruction.target? = some l)
      (ht : c.target? l = some target) : Leads c i target
  | handler {handler : Handler} (h : c.handler? i = some handler) : Leads c i handler.target

/-- What is told of an exception. -/
def Exception.told (e : Exception) : Detail := .exception (.exception e)

/-- The exceptions that only ill-formed code leads to. -/
def Exception.internal : List Exception := [outOfRange, unknownLabel, noSuchLocal, strayYield]

/-- They are runtime errors. -/
theorem Exception.not_mem_internal {e : Exception} (h : e.kind ≠ .runtimeError) :
    e ∉ internal := by
  rintro he
  simp only [internal, List.mem_cons, List.not_mem_nil, or_false] at he
  rcases he with rfl | rfl | rfl | rfl <;> exact h rfl

namespace Frame

/-- The instruction that a frame is at. -/
def current? (f : Frame) : Option Instruction := f.code.instruction? f.pc

/-- A frame is at the same instruction of the same activation as another one. -/
structure Alike (f f' : Frame) : Prop where
  address : f'.address = f.address
  code : f'.code = f.code
  started : f'.started = f.started
  locals : f'.locals.size = f.locals.size
  pc : f'.pc = f.pc

/-- A frame goes on: it is at the same instruction, or at one that control can go to. -/
structure Moves (f f' : Frame) : Prop where
  address : f'.address = f.address
  code : f'.code = f.code
  started : f'.started = f.started
  locals : f'.locals.size = f.locals.size
  pc : f'.pc = f.pc ∨ f.code.Leads f.pc f'.pc

@[refl] theorem Alike.refl (f : Frame) : f.Alike f := ⟨rfl, rfl, rfl, rfl, rfl⟩

theorem alike_stack (f : Frame) (stack : List Value) : f.Alike { f with stack } :=
  ⟨rfl, rfl, rfl, rfl, rfl⟩

theorem alike_push (f : Frame) (v : Value) : f.Alike (f.push v) := f.alike_stack _

theorem alike_line (f : Frame) (lastLine : Option ℕ) (jumped : Bool) :
    f.Alike { f with lastLine, jumped } :=
  ⟨rfl, rfl, rfl, rfl, rfl⟩

theorem alike_store (f : Frame) (slot : ℕ) (v : Value) (stack : List Value) :
    f.Alike (f.store slot v stack) :=
  ⟨rfl, rfl, rfl, by simp [store], rfl⟩

theorem Alike.trans {f f' f'' : Frame} (h : f.Alike f') (h' : f'.Alike f'') : f.Alike f'' :=
  ⟨h'.address.trans h.address, h'.code.trans h.code, h'.started.trans h.started,
    h'.locals.trans h.locals, h'.pc.trans h.pc⟩

theorem Alike.current? {f f' : Frame} (h : f.Alike f') : f'.current? = f.current? := by
  rw [Frame.current?, h.code, h.pc]
  rfl

theorem Alike.moves {f f' : Frame} (h : f.Alike f') : f.Moves f' :=
  ⟨h.address, h.code, h.started, h.locals, Or.inl h.pc⟩

/-- A frame that goes elsewhere goes on if control can go there. -/
theorem Alike.goto {f f' : Frame} (h : f.Alike f') {pc : ℕ} (hpc : f.code.Leads f.pc pc)
    (jumped : Bool) : f.Moves (f'.goto pc jumped) :=
  ⟨h.address, h.code, h.started, h.locals, Or.inr hpc⟩

theorem Moves.alike {f f' f'' : Frame} (h : f.Moves f') (h' : f'.Alike f'') : f.Moves f'' :=
  ⟨h'.address.trans h.address, h'.code.trans h.code, h'.started.trans h.started,
    h'.locals.trans h.locals, by rw [h'.pc]; exact h.pc⟩

/-! ### What is reported at which juncture -/

/-- **What is told at a juncture**: the event and its detail.  Most reports are made at certain
instructions only. -/
inductive Tells (f : Frame) : Event → Detail → Juncture → Prop
  | start : Tells f .frameStart (.code none) .entered
  | resume : Tells f .frameResume (.code none) .entered
  | line {i : Instruction} {n : ℕ} (h : f.current? = some i) : Tells f .line (.line n) .line
  | instruction {i : Instruction} (h : f.current? = some i) :
      Tells f .instruction .instruction .instruction
  | call {n : ℕ} (h : f.current? = some (.call n)) (callable : Value) (args : List Value) :
      Tells f .call (.call callable args.head?) (.called callable args)
  | nativeReturn {n : ℕ} (h : f.current? = some (.call n)) (callable : Value) (args : List Value)
      (v : Value) : Tells f .nativeReturn (.call callable args.head?) (.nativeReturned v)
  | nativeRaise {n : ℕ} (h : f.current? = some (.call n)) (callable : Value) (args : List Value)
      {e : Exception} (he : e ∉ Exception.internal) :
      Tells f .nativeRaise (.call callable args.head?) (.nativeRaised e)
  | ret (h : f.current? = some .ret) (v : Value) :
      Tells f .frameReturn (.code (some v)) (.returning v)
  | yield (h : f.current? = some .yield) (v : Value) :
      Tells f .frameYield (.code (some v)) (.yielding v)
  | jump {l : Label} {target : ℕ} (h : f.current? = some (.jump l))
      (ht : f.code.target? l = some target) :
      Tells f .jump (.branch (offsetOf target)) (.transferring target true)
  | pass {i : Instruction} (h : f.current? = some i) (hi : i.isTerminator = false) :
      Tells f .branch (.branch (offsetOf (f.pc + 1))) (.transferring (f.pc + 1) false)
  | branch {i : Instruction} {l : Label} {target : ℕ} (h : f.current? = some i)
      (hl : i.target? = some l) (ht : f.code.target? l = some target) :
      Tells f .branch (.branch (offsetOf target)) (.transferring target true)
  | stop {l : Label} {target : ℕ} (h : f.current? = some (.forIter l))
      (ht : f.code.target? l = some target) (e : Exception) :
      Tells f .stopIteration (.exception (.exception e)) .stopped
  | raise (e : Exception) : Tells f .raise (.exception (.exception e)) (.raised e)
  | handle (e : Exception) : Tells f .exceptionHandled (.exception (.exception e)) (.handled e)
  | unwind (e : Exception) : Tells f .frameUnwind (.exception (.exception e)) (.unwound e)

/-- **What an instruction can raise.**  The internal exceptions are raised by instructions that name
what is not there, or by the program itself. -/
inductive MayRaise (f : Frame) : Exception → Prop
  | ordinary {e : Exception} (he : e ∉ Exception.internal) : MayRaise f e
  | own {e : Exception} {rest : List Value} (h : f.current? = some .raise)
      (hs : f.stack = .exception e :: rest) : MayRaise f e
  | label {i : Instruction} {l : Label} (h : f.current? = some i) (hl : i.target? = some l)
      (ht : f.code.target? l = none) : MayRaise f .unknownLabel
  | slot {i : Instruction} {slot : ℕ} (h : f.current? = some i) (hs : i.slot? = some slot)
      (hl : f.locals.size ≤ slot) : MayRaise f .noSuchLocal

theorem mayRaise_of_kind {f : Frame} {e : Exception} (h : e.kind ≠ .runtimeError) :
    f.MayRaise e :=
  .ordinary (Exception.not_mem_internal h)

/-- What is told while control is transferred can happen. -/
theorem Tells.leads {f : Frame} {e : Event} {d : Detail} {pc : ℕ} {jumped : Bool}
    (h : f.Tells e d (.transferring pc jumped)) : f.code.Leads f.pc pc := by
  cases h with
  | jump h ht => exact .jump h rfl ht
  | pass h hi => exact .next h hi
  | branch h hl ht => exact .jump h hl ht

section Tells

variable {f : Frame} {event : Event} {d : Detail} {j : Juncture}

theorem Tells.of_raise (h : f.Tells .raise d j) : ∃ e, j = .raised e ∧ d = e.told := by
  cases h with
  | raise e => exact ⟨e, rfl, rfl⟩

theorem Tells.of_handled (h : f.Tells .exceptionHandled d j) :
    ∃ e, j = .handled e ∧ d = e.told := by
  cases h with
  | handle e => exact ⟨e, rfl, rfl⟩

theorem Tells.of_unwind (h : f.Tells .frameUnwind d j) : ∃ e, j = .unwound e ∧ d = e.told := by
  cases h with
  | unwind e => exact ⟨e, rfl, rfl⟩

theorem Tells.of_instruction (h : f.Tells .instruction d j) : j = .instruction := by
  cases h
  rfl

theorem Tells.of_return (h : f.Tells .frameReturn d j) : ∃ v, j = .returning v := by
  cases h with
  | ret _ v => exact ⟨v, rfl⟩

theorem Tells.of_yield (h : f.Tells .frameYield d j) : f.current? = some .yield := by
  cases h with
  | yield hi => exact hi

theorem Tells.at_transferring {pc : ℕ} {jumped : Bool}
    (h : f.Tells event d (.transferring pc jumped)) :
    (event = .jump ∨ event = .branch) ∧ d = .branch (offsetOf pc) := by
  cases h with
  | jump => exact ⟨Or.inl rfl, rfl⟩
  | pass | branch => exact ⟨Or.inr rfl, rfl⟩

theorem Tells.at_raised {e : Exception} (h : f.Tells event d (.raised e)) : event = .raise := by
  cases h
  rfl

theorem Tells.at_unwound {e : Exception} (h : f.Tells event d (.unwound e)) :
    event = .frameUnwind ∧ d = e.told := by
  cases h
  exact ⟨rfl, rfl⟩

theorem Tells.at_called {callable : Value} {args : List Value}
    (h : f.Tells event d (.called callable args)) : ∃ n, f.current? = some (.call n) := by
  cases h with
  | call hi => exact ⟨_, hi⟩

theorem Tells.at_instruction (h : f.Tells event d .instruction) :
    event = .instruction ∧ ∃ i, f.current? = some i := by
  cases h with
  | instruction hi => exact ⟨rfl, _, hi⟩

theorem Tells.at_returning {v : Value} (h : f.Tells event d (.returning v)) :
    event = .frameReturn := by
  cases h
  rfl

theorem Tells.at_yielding {v : Value} (h : f.Tells event d (.yielding v)) :
    event = .frameYield ∧ f.current? = some .yield := by
  cases h with
  | yield hi => exact ⟨rfl, hi⟩

end Tells

end Frame

/-! ### Activations that go on -/

namespace Juncture

/-- Whether a juncture is in the middle of an activation and of no exception's way. -/
def isPlain : Juncture → Bool
  | .entered | .raised _ | .handled _ | .unwound _ => false
  | _ => true

/-- Whether an instruction by itself comes to a juncture in its middle. -/
def isMidway : Juncture → Bool
  | .called .. | .nativeReturned _ | .nativeRaised _ | .returning _ | .yielding _
  | .transferring .. => true
  | _ => false

/-- Whether an instruction goes on at a juncture. -/
def works : Juncture → Bool
  | .instruction | .called .. | .nativeReturned _ | .nativeRaised _ | .stopped => true
  | _ => false

/-- The frame with which an activation turns to an instruction, if that is what comes next. -/
def arrival? (f : Frame) : Juncture → Option Frame
  | .entered => some f
  | .transferring pc jumped => some (f.goto pc jumped)
  | .handled e => some (f.push (.exception e))
  | _ => none

theorem arrival?_of_works {j : Juncture} (h : j.works = true) (f : Frame) :
    j.arrival? f = none := by
  cases j <;> first | rfl | cases h

theorem isPlain_of_isMidway {j : Juncture} (h : j.isMidway = true) : j.isPlain = true := by
  cases j <;> first | rfl | cases h

end Juncture

namespace Thread

/-- A thread has the same activations as another one, all of them at the same instructions. -/
structure Alike (t t' : Thread) : Prop where
  limit : t'.limit = t.limit
  below : t'.below = t.below
  generator : t'.top.generator = t.top.generator
  frame : t.frame.Alike t'.frame

/-- The activation on top of a thread goes on. -/
structure Moves (t t' : Thread) : Prop where
  limit : t'.limit = t.limit
  below : t'.below = t.below
  generator : t'.top.generator = t.top.generator
  frame : t.frame.Moves t'.frame

@[refl] theorem Alike.refl (t : Thread) : t.Alike t := ⟨rfl, rfl, rfl, .refl t.frame⟩

theorem Alike.trans {t t' t'' : Thread} (h : t.Alike t') (h' : t'.Alike t'') : t.Alike t'' :=
  ⟨h'.limit.trans h.limit, h'.below.trans h.below, h'.generator.trans h.generator,
    h.frame.trans h'.frame⟩

theorem alike_withFrame {t : Thread} {f : Frame} (h : t.frame.Alike f) : t.Alike (t.withFrame f) :=
  ⟨rfl, rfl, rfl, h⟩

theorem Alike.moves {t t' : Thread} (h : t.Alike t') : t.Moves t' :=
  ⟨h.limit, h.below, h.generator, h.frame.moves⟩

theorem moves_refl (t : Thread) : t.Moves t := (Alike.refl t).moves

theorem moves_withFrame {t : Thread} {f : Frame} (h : t.frame.Moves f) :
    t.Moves (t.withFrame f) :=
  ⟨rfl, rfl, rfl, h⟩

theorem Moves.withFrame {t t' : Thread} (h : t.Moves t') {f : Frame} (hf : t'.frame.Alike f) :
    t.Moves (t'.withFrame f) :=
  ⟨h.limit, h.below, h.generator, h.frame.alike hf⟩

/-- The activation on top goes on and reports, without having been entered anew. -/
def Continues (t : Thread) (a : Activity) : Prop :=
  ∃ t' e d j, t.Moves t' ∧ t'.frame.Tells e d j ∧ j ≠ .entered ∧ a = t'.report e d j

theorem Moves.continues {t t' : Thread} (h : t.Moves t') {e : Event} {d : Detail} {j : Juncture}
    (ht : t'.frame.Tells e d j) (hj : j ≠ .entered) : t.Continues (t'.report e d j) :=
  ⟨t', e, d, j, h, ht, hj, rfl⟩

theorem Moves.continues_raise {t t' : Thread} (h : t.Moves t') (e : Exception) :
    t.Continues (t'.raise e) :=
  h.continues (.raise e) nofun

theorem Moves.continues_stop {t t' : Thread} (h : t.Moves t') {d : Detail}
    (ht : t'.frame.Tells .stopIteration d .stopped) :
    t.Continues (t'.report .stopIteration d .stopped) :=
  h.continues ht nofun

/-- **The activation on top goes on by itself**: it reports what it does, its instruction fails, or
there is no instruction where it has gone. -/
inductive Proceeds (t : Thread) : Activity → Prop
  | reports {t' : Thread} {e : Event} {d : Detail} {j : Juncture} (hm : t.Moves t')
      (ht : t'.frame.Tells e d j) (hj : j.isPlain = true) : Proceeds t (t'.report e d j)
  | fails {t' : Thread} {e : Exception} (ha : t.Alike t') (he : t.frame.MayRaise e) :
      Proceeds t (t'.raise e)
  | lost {t' : Thread} (hm : t.Moves t') (hi : t'.frame.current? = none) :
      Proceeds t (t'.raise .outOfRange)

theorem Proceeds.continues {t : Thread} {a : Activity} (h : t.Proceeds a) : t.Continues a := by
  cases h with
  | reports hm ht hj =>
      refine hm.continues ht ?_
      rintro rfl
      cases hj
  | fails ha => exact ha.moves.continues_raise _
  | lost hm => exact hm.continues_raise _

theorem Moves.proceeds_begin {t t' : Thread} (h : t.Moves t') {i : Instruction}
    (hi : t'.frame.current? = some i) : t.Proceeds t'.begin :=
  .reports h (.instruction hi) rfl

/-- **How a thread turns to its instruction**: it reports the line or the instruction, unless there
is none. -/
inductive Fetches (t : Thread) : Activity → Prop
  | lost (hi : t.frame.current? = none) : Fetches t (t.raise .outOfRange)
  | line {i : Instruction} {lastLine : Option ℕ} {jumped : Bool} {n : ℕ}
      (hi : t.frame.current? = some i) :
      Fetches t ((t.withFrame { t.frame with lastLine, jumped }).report .line (.line n) .line)
  | instruction {i : Instruction} {lastLine : Option ℕ} {jumped : Bool}
      (hi : t.frame.current? = some i) :
      Fetches t (t.withFrame { t.frame with lastLine, jumped }).begin

theorem fetches_fetch (t : Thread) : t.Fetches t.fetch := by
  simp only [fetch]
  split
  · rename_i hi
    exact .lost hi
  · rename_i i hi
    split
    · exact .instruction hi
    · split
      · exact .line hi
      · exact .instruction hi

/-- **Where an exception is sent**: out of the frame, or to the handler of the instruction. -/
inductive Routes (t : Thread) (e : Exception) : Activity → Prop
  | unwinds (hh : t.frame.code.handler? t.frame.pc = none) :
      Routes t e (t.report .frameUnwind e.told (.unwound e))
  | handles {handler : Handler} (hh : t.frame.code.handler? t.frame.pc = some handler)
      (stack : List Value) :
      Routes t e ((t.withFrame ({ t.frame with stack }.goto handler.target true)).report
        .exceptionHandled e.told (.handled e))

theorem routes_route (t : Thread) (e : Exception) : t.Routes e (t.route e) := by
  simp only [route]
  split
  · rename_i hh
    exact .unwinds hh
  · rename_i handler hh
    exact .handles hh _

theorem Moves.proceeds_fetch {t t' : Thread} (h : t.Moves t') : t.Proceeds t'.fetch := by
  have hfetches := t'.fetches_fetch
  generalize t'.fetch = a at hfetches
  cases hfetches with
  | lost hi => exact .lost h hi
  | line hi => exact .reports (h.withFrame (t'.frame.alike_line _ _)) (.line hi) rfl
  | instruction hi => exact (h.withFrame (t'.frame.alike_line _ _)).proceeds_begin hi

/-- **What an instruction does by itself**: it is done and control goes on behind it, something is
reported in the middle of it, or it fails.  Control is transferred only by an instruction that names
a target. -/
inductive Performs (t : Thread) : Activity → Prop
  | passes {f : Frame} {i : Instruction} (hf : t.frame.Alike f) (hi : t.frame.current? = some i)
      (hn : i.isTerminator = false) (htarget : i.target? = none) :
      Performs t (t.withFrame f.advance).fetch
  | tells {f : Frame} {e : Event} {d : Detail} {j : Juncture} (hf : t.frame.Alike f)
      (ht : f.Tells e d j) (hj : j.isMidway = true)
      (htarget : ∀ pc jumped, j = .transferring pc jumped →
        ∃ i l, t.frame.current? = some i ∧ i.target? = some l) :
      Performs t ((t.withFrame f).report e d j)
  | fails {f : Frame} {e : Exception} (hf : t.frame.Alike f) (he : t.frame.MayRaise e) :
      Performs t ((t.withFrame f).raise e)

theorem Performs.proceeds {t : Thread} {a : Activity} (h : t.Performs a) : t.Proceeds a := by
  cases h with
  | @passes f i hf hi hn =>
      have hleads : t.frame.code.Leads t.frame.pc (f.pc + 1) := by
        rw [hf.pc]
        exact .next hi hn
      exact (moves_withFrame (hf.goto hleads false)).proceeds_fetch
  | tells hf ht hj =>
      exact .reports (moves_withFrame hf.moves) ht (Juncture.isPlain_of_isMidway hj)
  | fails hf he => exact .fails (alike_withFrame hf) he

/-- **How the activation on top goes on by itself** at a juncture: it turns to an instruction, which
is reported after its line, or its instruction goes on. -/
inductive Goes (t : Thread) : Juncture → Activity → Prop
  | arrives {j : Juncture} {f : Frame} (hf : j.arrival? t.frame = some f)
      (hm : t.frame.Moves f) : Goes t j (t.withFrame f).fetch
  | begins {i : Instruction} (hi : t.frame.current? = some i) : Goes t .line t.begin
  | works {j : Juncture} {a : Activity} (hj : j.works = true) (ha : t.Performs a) : Goes t j a

theorem Goes.proceeds {t : Thread} {j : Juncture} {a : Activity} (h : t.Goes j a) :
    t.Proceeds a := by
  cases h with
  | arrives _ hm => exact (moves_withFrame hm).proceeds_fetch
  | begins hi => exact (moves_refl t).proceeds_begin hi
  | works _ ha => exact ha.proceeds

/-- Where an instruction goes on, nothing else happens. -/
theorem Goes.performs {t : Thread} {j : Juncture} {a : Activity} (h : t.Goes j a)
    (hj : j.works = true) : t.Performs a := by
  cases h with
  | arrives hf =>
      rw [Juncture.arrival?_of_works hj] at hf
      cases hf
  | begins => cases hj
  | works _ ha => exact ha

section Performing

variable {h : Heap} {t : Thread} {f : Frame}

theorem performs_fail (hf : t.frame.Alike f) {e : Exception} (he : t.frame.MayRaise e) :
    t.Performs (t.fail h f e).2 :=
  .fails hf he

theorem performs_next (hf : t.frame.Alike f) {i : Instruction} (hi : t.frame.current? = some i)
    (hn : i.isTerminator = false) (htarget : i.target? = none) :
    t.Performs (t.next h f).2 :=
  .passes hf hi hn htarget

theorem performs_transfer (hf : t.frame.Alike f) {e : Event} {pc : ℕ} {jumped : Bool}
    (ht : f.Tells e (.branch (offsetOf pc)) (.transferring pc jumped)) {i : Instruction} {l : Label}
    (hi : t.frame.current? = some i) (hl : i.target? = some l) :
    t.Performs (t.transfer h f e pc jumped).2 :=
  .tells hf ht rfl fun _ _ _ => ⟨i, l, hi, hl⟩

theorem performs_produce {l : Label} (hi : t.frame.current? = some (.forIter l))
    (item : Value) : t.Performs (t.produce h item).2 :=
  performs_transfer (t.frame.alike_push item) (.pass (i := .forIter l) hi rfl) hi rfl

theorem performs_exhaust {l : Label} {exit : ℕ} (hi : t.frame.current? = some (.forIter l))
    (ht : t.frame.code.target? l = some exit) : t.Performs (t.exhaust h exit).2 :=
  performs_transfer (t.frame.alike_stack _) (.branch (i := .forIter l) hi rfl ht) hi rfl

end Performing

end Thread

end Tracepoint
