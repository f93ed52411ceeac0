/-
**Threads: running code, one report at a time.**

A thread is a pile of activations, the one that runs on top.  It runs until it has something to
report, and is then resumed with the answer: nothing, or a fault, which it meets as an exception
at the instruction it is executing.  Whether anybody listens to a report is none of its business.

The instruction pointer stays at an instruction until the instruction is over.  Before each
instruction its line is reported, if the line starts there and is new or was jumped to, and then
the instruction itself.  As every instruction is reported, a thread never runs for long without a
report, and resuming it is no recursion.

Main definitions:

* `Tracepoint.Activation`, `Tracepoint.Thread` — activations and threads;
* `Tracepoint.Juncture`, `Tracepoint.Activity` — where a thread waits for an answer, and what a
  thread is doing;
* `Tracepoint.Thread.execute` — what the instructions do;
* `Tracepoint.Thread.resume` — **how a thread goes on after an answer**;
* `Tracepoint.Activity.call` — a call from outside any code unit.
-/

import Tracepoint.Callback
import Tracepoint.Value.Arithmetic
import Tracepoint.Value.Iteration
import Tracepoint.Value.Native
import Tracepoint.Value.Shown

set_option relaxedAutoImplicit false
set_option autoImplicit false

namespace Tracepoint

/-! ### Activations, threads and their reports -/

/-- A frame that has been entered and not left. -/
structure Activation where
  frame : Frame
  /-- The generator whose frame it is, if it is one's. -/
  generator : Option Nat
  deriving Inhabited

/-- A pile of activations. -/
structure Thread where
  limit : Nat
  top : Activation
  /-- The activations that wait for it, the latest first. -/
  below : List Activation
  depth : Nat
  depth_eq : depth = below.length + 1

instance : Inhabited Thread := ⟨⟨0, default, [], 1, rfl⟩⟩

/-- Where a thread waits for the answer to a report. -/
inductive Juncture where
  | entered
  | line
  /-- An instruction was reported, which is executed next. -/
  | instruction
  | called (callable : Value) (args : List Value)
  /-- The return of a native was reported, whose value is pushed next. -/
  | nativeReturned (v : Value)
  /-- The failure of a native was reported, whose exception is raised next. -/
  | nativeRaised (e : Exception)
  /-- A return was reported; the frame is left with the value. -/
  | returning (v : Value)
  /-- A yield was reported; the frame is suspended and the value handed over. -/
  | yielding (v : Value)
  /-- A transfer of control was reported, which is made next. -/
  | transferring (pc : Nat) (jumped : Bool)
  /-- The return of a generator was reported in the loop over it, which is left next. -/
  | stopped
  /-- An exception was reported, for which a handler is looked up next. -/
  | raised (e : Exception)
  /-- The entry of a handler was reported, to which the exception is handed next. -/
  | handled (e : Exception)
  /-- An exception was reported to leave the frame, which it does next. -/
  | unwound (e : Exception)
  deriving Inhabited

/-- What a thread is doing. -/
inductive Activity where
  | reporting (t : Thread) (o : Occurrence) (j : Juncture)
  | finished (r : Except Exception Value)
  deriving Inhabited

namespace Thread

def start (limit : Nat) (a : Activation) : Thread :=
  ⟨limit, a, [], 1, rfl⟩

def push (t : Thread) (a : Activation) : Thread :=
  { t with
    top := a, below := t.top :: t.below, depth := t.depth + 1
    depth_eq := by simp [t.depth_eq] }

/-- The thread without the activation on top, if another one waits for it. -/
def pop? (t : Thread) : Option Thread :=
  match h : t.below with
  | [] => none
  | caller :: rest =>
      some { t with
        top := caller, below := rest, depth := t.depth - 1
        depth_eq := by simp [t.depth_eq, h] }

def hasRoom (t : Thread) : Bool := t.depth < t.limit

def frame (t : Thread) : Frame := t.top.frame

def withFrame (t : Thread) (f : Frame) : Thread :=
  { t with top := { t.top with frame := f } }

def report (t : Thread) (e : Event) (detail : Detail) (j : Juncture) : Activity :=
  .reporting t ⟨e, .loaded t.frame.address t.frame.code, t.frame.offset, detail⟩ j

def raise (t : Thread) (e : Exception) : Activity :=
  t.report .raise (.exception (.exception e)) (.raised e)

/-! ### From one instruction to the next -/

def begin (t : Thread) : Activity :=
  t.report .instruction .instruction .instruction

/-- Turns to the current instruction: its line is reported first if it starts there and either is
new or was jumped to. -/
def fetch (t : Thread) : Activity :=
  let f := t.frame
  match f.code.instruction? f.pc with
  | none => t.raise .outOfRange
  | some _ =>
      match f.code.line? f.pc with
      | none => (t.withFrame { f with jumped := false }).begin
      | some line =>
          let t := t.withFrame { f with jumped := false, lastLine := some line }
          if f.code.startsLine f.pc && (f.jumped || f.lastLine != some line) then
            t.report .line (.line line) .line
          else t.begin

/-- Goes on to the next instruction with another state of the frame. -/
def next (h : Heap) (t : Thread) (f : Frame) : Heap × Activity :=
  (h, (t.withFrame f.advance).fetch)

def fail (h : Heap) (t : Thread) (f : Frame) (e : Exception) : Heap × Activity :=
  (h, (t.withFrame f).raise e)

def transfer (h : Heap) (t : Thread) (f : Frame) (e : Event) (pc : Nat) (jumped : Bool) :
    Heap × Activity :=
  (h, (t.withFrame f).report e (.branch (offsetOf pc)) (.transferring pc jumped))

/-! ### Entering and leaving frames -/

def enter (t : Thread) : Activity :=
  (t.withFrame { t.frame with started := true }).report
    (if t.frame.started then .frameResume else .frameStart) (.code none) .entered

/-- Goes on with an exception in the frame that waits for this one, which is left for good. -/
def leaveRaising (t : Thread) (e : Exception) : Activity :=
  match t.pop? with
  | none => .finished (.error e)
  | some caller => caller.raise e

/-- Goes on with a value as the result of the call that the frame below is making. -/
def leaveReturning (h : Heap) (t : Thread) (v : Value) : Heap × Activity :=
  match t.pop? with
  | none => (h, .finished (.ok v))
  | some caller => caller.next h (caller.frame.push v)

/-- The heap in which the generator of an activation, if it has one, has another state. -/
def settle (h : Heap) (t : Thread) (s : GeneratorState) : Heap :=
  match t.top.generator with
  | none => h
  | some g => h.setGenerator g s

/-! ### Calls -/

/-- Calls a value that is no function: a native function runs at once, and nothing else can be
called. -/
def callNative (h : Heap) (callable : Value) (args : List Value) :
    Heap × Except Exception Value :=
  match callable with
  | .native f => h.runNative f args
  | v => (h, .error (.notCallable v.typeName))

def makeCall (h : Heap) (t : Thread) (callable : Value) (args : List Value) : Heap × Activity :=
  let told : Detail := .call callable args.head?
  match callable with
  | .function a =>
      match h.code? a with
      | none => t.fail h t.frame (.notCallable callable.typeName)
      | some code =>
          match Frame.start a code args with
          | .error e => t.fail h t.frame e
          | .ok frame =>
              if code.isGenerator then
                let (h, g) := h.addGenerator frame
                t.next h (t.frame.push g)
              else if t.hasRoom then (h, (t.push ⟨frame, none⟩).enter)
              else t.fail h t.frame .recursionLimit
  | callable =>
      match callNative h callable args with
      | (h, .ok v) => (h, t.report .nativeReturn told (.nativeReturned v))
      | (h, .error e) => (h, t.report .nativeRaise told (.nativeRaised e))

/-! ### Loops -/

def produce (h : Heap) (t : Thread) (item : Value) : Heap × Activity :=
  t.transfer h (t.frame.push item) .branch (t.frame.pc + 1) false

def exhaust (h : Heap) (t : Thread) (exit : Nat) : Heap × Activity :=
  t.transfer h { t.frame with stack := t.frame.stack.tail } .branch exit true

/-- Advances an iterator for the loop at the current instruction. -/
def advanceIterator (h : Heap) (t : Thread) (exit : Nat) (iterator : Value) : Heap × Activity :=
  match iterator with
  | .iterator a =>
      match (h.iteration a).next with
      | some (item, it) => t.produce (h.setIteration a it) item
      | none => t.exhaust h exit
  | .generator g =>
      match h.generatorState g with
      | .running => t.fail h t.frame .generatorRunning
      | .finished => t.exhaust h exit
      | .suspended frame =>
          if t.hasRoom then (h.setGenerator g .running, (t.push ⟨frame, some g⟩).enter)
          else t.fail (h.setGenerator g .finished) t.frame .recursionLimit
  | v => t.fail h t.frame (.notIterator v.typeName)

def loopExit? (t : Thread) : Option Nat :=
  match t.frame.code.instruction? t.frame.pc with
  | some (.forIter exit) => t.frame.code.target? exit
  | _ => none

def leaveLoop (h : Heap) (t : Thread) : Heap × Activity :=
  match t.loopExit? with
  | some exit => t.exhaust h exit
  | none => t.fail h t.frame .unknownLabel

/-- What the return of a generator is reported as: the end of an iteration, with the value that
was returned for a message. -/
def stopIteration (h : Heap) : Value → Exception
  | .null => ⟨.stopIteration, ""⟩
  | v => ⟨.stopIteration, h.shown v⟩

/-! ### Instructions -/

/-- Takes `n` values from the stack, the oldest first. -/
def takeArgs (f : Frame) (n : Nat) : Except Exception (List Value × Frame) :=
  let args := f.stack.take n
  if args.length = n then .ok (args.reverse, { f with stack := f.stack.drop n })
  else .error .stackUnderflow

/-- Goes on to the next instruction with `v` moved from the top of the stack into a local.  The
frame is taken out of the thread first, so that nobody else holds its locals when they change. -/
def store (h : Heap) (t : Thread) (slot : Nat) (v : Value) (stack : List Value) :
    Heap × Activity :=
  match t with
  | ⟨limit, ⟨frame, generator⟩, below, depth, depth_eq⟩ =>
      (h, fetch ⟨limit, ⟨(frame.store slot v stack).advance, generator⟩, below, depth, depth_eq⟩)

/-- Moving a value into a local is going on with the frame in which it is moved. -/
theorem store_eq (h : Heap) (t : Thread) (slot : Nat) (v : Value) (stack : List Value) :
    t.store h slot v stack = t.next h (t.frame.store slot v stack) := rfl

def execute (h : Heap) (t : Thread) (i : Instruction) : Heap × Activity :=
  let f := t.frame
  match i with
  | .nop => t.next h f
  | .loadConst k =>
      match f.code.const? k with
      | some v => t.next h (f.push v)
      | none => t.fail h f .noSuchConstant
  | .loadLocal slot =>
      match f.locals[slot]? with
      | some v => t.next h (f.push v)
      | none => t.fail h f .noSuchLocal
  | .storeLocal slot =>
      match f.stack with
      | [] => t.fail h f .stackUnderflow
      | v :: stack =>
          if slot < f.locals.size then t.store h slot v stack
          else t.fail h { f with stack } .noSuchLocal
  | .pop =>
      match f.stack with
      | [] => t.fail h f .stackUnderflow
      | _ :: stack => t.next h { f with stack }
  | .buildList n =>
      match takeArgs f n with
      | .error e => t.fail h f e
      | .ok (items, f) =>
          let (h, list) := h.addList items.toArray
          t.next h (f.push list)
  | .binary op =>
      match f.stack with
      | w :: v :: stack =>
          match h.operate op v w with
          | (h, .ok r) => t.next h { f with stack := r :: stack }
          | (h, .error e) => t.fail h { f with stack } e
      | _ => t.fail h { f with stack := [] } .stackUnderflow
  | .call n =>
      match takeArgs f n with
      | .error e => t.fail h f e
      | .ok (args, f) =>
          match f.stack with
          | [] => t.fail h f .stackUnderflow
          | callable :: stack =>
              (h, (t.withFrame { f with stack }).report .call (.call callable args.head?)
                (.called callable args))
  | .ret =>
      match f.stack with
      | [] => t.fail h f .stackUnderflow
      | v :: stack =>
          (h, (t.withFrame { f with stack }).report .frameReturn (.code (some v)) (.returning v))
  | .yield =>
      match f.stack with
      | [] => t.fail h f .stackUnderflow
      | v :: stack =>
          (h, (t.withFrame { f with stack }).report .frameYield (.code (some v)) (.yielding v))
  | .raise =>
      match f.stack with
      | [] => t.fail h f .stackUnderflow
      | .exception e :: stack => t.fail h { f with stack } e
      | v :: stack => t.fail h { f with stack } (.notRaisable v.typeName)
  | .jump l =>
      match f.code.target? l with
      | none => t.fail h f .unknownLabel
      | some target => t.transfer h f .jump target true
  | .popJumpIfFalse l =>
      match f.stack with
      | [] => t.fail h f .stackUnderflow
      | v :: stack =>
          if h.isTruthy v then t.transfer h { f with stack } .branch (f.pc + 1) false
          else
            match f.code.target? l with
            | none => t.fail h { f with stack } .unknownLabel
            | some target => t.transfer h { f with stack } .branch target true
  | .getIter =>
      match f.stack with
      | [] => t.fail h f .stackUnderflow
      | v :: stack =>
          match h.iterate v with
          | (h, .ok it) => t.next h { f with stack := it :: stack }
          | (h, .error e) => t.fail h { f with stack } e
  | .forIter l =>
      match f.code.target? l with
      | none => t.fail h f .unknownLabel
      | some exit =>
          match f.stack with
          | [] => t.fail h f .stackUnderflow
          | iterator :: _ => t.advanceIterator h exit iterator
  | .matchException kind =>
      match f.stack with
      | [] => t.fail h f .stackUnderflow
      | .exception e :: _ => t.next h (f.push (.bool (e.kind.isA kind)))
      | v :: _ => t.fail h f (.notException v.typeName)

def executeCurrent (h : Heap) (t : Thread) : Heap × Activity :=
  match t.frame.code.instruction? t.frame.pc with
  | some i => t.execute h i
  | none => t.fail h t.frame .outOfRange

/-! ### Exceptions -/

/-- Sends an exception that was reported to the handler of the current instruction, or out of the
frame if there is none. -/
def route (t : Thread) (e : Exception) : Activity :=
  let f := t.frame
  let told : Detail := .exception (.exception e)
  match f.code.handler? f.pc with
  | none => t.report .frameUnwind told (.unwound e)
  | some handler =>
      let f := { f with stack := f.stack.drop (f.stack.length - handler.depth) }
      (t.withFrame (f.goto handler.target true)).report .exceptionHandled told (.handled e)

/-! ### Leaving by return and yield -/

def leaveByReturn (h : Heap) (t : Thread) (v : Value) : Heap × Activity :=
  match t.top.generator, t.pop? with
  | some g, some caller =>
      let stop := stopIteration h v
      (h.setGenerator g .finished,
        caller.report .stopIteration (.exception (.exception stop)) .stopped)
  | _, _ => t.leaveReturning (t.settle h .finished) v

/-- Suspends the frame behind its yield and hands the value to the loop.  Only a generator can be
suspended. -/
def leaveByYield (h : Heap) (t : Thread) (v : Value) : Heap × Activity :=
  match t.top.generator, t.pop? with
  | some g, some caller => caller.produce (h.setGenerator g (.suspended t.frame.advance)) v
  | _, _ => (t.settle h .finished, t.leaveRaising .strayYield)

/-! ### Going on after an answer -/

/-- **The thread goes on after its report was answered without a fault.** -/
def proceed (h : Heap) (t : Thread) : Juncture → Heap × Activity
  | .entered => (h, t.fetch)
  | .line => (h, t.begin)
  | .instruction => t.executeCurrent h
  | .called callable args => t.makeCall h callable args
  | .nativeReturned v => t.next h (t.frame.push v)
  | .nativeRaised e => (h, t.raise e)
  | .returning v => t.leaveByReturn h v
  | .yielding v => t.leaveByYield h v
  | .transferring pc jumped => (h, (t.withFrame (t.frame.goto pc jumped)).fetch)
  | .stopped => t.leaveLoop h
  | .raised e => (h, t.route e)
  | .handled e => (h, (t.withFrame (t.frame.push (.exception e))).fetch)
  | .unwound e => (t.settle h .finished, t.leaveRaising e)

/-- **The thread goes on after its report was answered with a fault.**  The fault is raised at the
current instruction; while an exception is on its way already, it takes the place of that. -/
def suffer (h : Heap) (t : Thread) (fault : Exception) : Juncture → Heap × Activity
  | .raised _ => (h, t.route fault)
  | .handled e => t.fail h (t.frame.push (.exception e)) fault
  | .unwound _ => (t.settle h .finished, t.leaveRaising fault)
  | _ => (h, t.raise fault)

/-- **How a thread goes on after an answer.** -/
def resume (h : Heap) (t : Thread) (j : Juncture) : Except Exception Unit → Heap × Activity
  | .ok () => t.proceed h j
  | .error fault => t.suffer h fault j

end Thread

/-! ### Calls from outside -/

/-- A call from outside any code unit.  The call itself is not reported. -/
def Activity.call (h : Heap) (limit : Nat) (callable : Value) (args : List Value) :
    Heap × Activity :=
  match callable with
  | .function a =>
      match h.code? a with
      | none => (h, .finished (.error (.notCallable callable.typeName)))
      | some code =>
          match Frame.start a code args with
          | .error e => (h, .finished (.error e))
          | .ok frame =>
              if code.isGenerator then
                let (h, g) := h.addGenerator frame
                (h, .finished (.ok g))
              else if 0 < limit then (h, (Thread.start limit ⟨frame, none⟩).enter)
              else (h, .finished (.error .recursionLimit))
  | callable =>
      let (h, r) := Thread.callNative h callable args
      (h, .finished r)

end Tracepoint
