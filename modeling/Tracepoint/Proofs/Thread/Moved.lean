/-
**Threads do not notice where they run.**

A thread that runs in a heap with other things in front reports the same as it does without them,
with all addresses moved.  Nor does it notice how deep it might get, as long as it does not try: the
limit is looked at in two places only, where a function is called and where a generator is resumed,
and there it is asked no more than whether there is room for one more activation.

Both are said at once: what a thread does is the same with all addresses moved and with another
limit, if there is room under the one exactly if there is room under the other.

Main definitions:

* `Tracepoint.Thread.behind`, `Tracepoint.Activity.behind` — threads and what they do, with their
  addresses moved and with another limit.

Main results:

* `Tracepoint.Thread.execute_behind`, `Tracepoint.Thread.proceed_behind` — **one turn**;
* `Tracepoint.Activity.call_behind` — a call from outside;
* `Tracepoint.Trace.line_behind`, `Tracepoint.Occurrence.site_behind` — what a trace writes of a
  report, and where the report is made.
-/

import Tracepoint.Proofs.Value.Moved
import Tracepoint.Trace.Report

set_option relaxedAutoImplicit false
set_option autoImplicit false

namespace Tracepoint

/-! ### Moving threads -/

def Activation.behind (g : Heap) (a : Activation) : Activation where
  frame := a.frame.behind g
  generator := a.generator.map (g.generators.size + ·)

/-- **A thread with its addresses moved and with another limit.** -/
def Thread.behind (g : Heap) (limit : ℕ) (t : Thread) : Thread where
  limit := limit
  top := t.top.behind g
  below := t.below.map (Activation.behind g)
  depth := t.depth
  depth_eq := by rw [t.depth_eq, List.length_map]

def Detail.behind (g : Heap) : Detail → Detail
  | .code v => .code (v.map (Value.behind g))
  | .call callable argument => .call (callable.behind g) (argument.map (Value.behind g))
  | .line n => .line n
  | .instruction => .instruction
  | .exception e => .exception (e.behind g)
  | .branch target => .branch target

def CodeUnit.behind (g : Heap) : CodeUnit → CodeUnit
  | .loaded a c => .loaded a (c.behind g)
  | .foreign n name firstLine => .foreign n name firstLine

def Occurrence.behind (g : Heap) (o : Occurrence) : Occurrence where
  event := o.event
  payload := ⟨o.payload.unit.behind g, o.payload.offset, o.payload.detail.behind g⟩

def Juncture.behind (g : Heap) : Juncture → Juncture
  | .called callable args => .called (callable.behind g) (args.map (Value.behind g))
  | .nativeReturned v => .nativeReturned (v.behind g)
  | .returning v => .returning (v.behind g)
  | .yielding v => .yielding (v.behind g)
  | j => j

/-- What a thread is doing, with its addresses moved and with another limit. -/
def Activity.behind (g : Heap) (limit : ℕ) : Activity → Activity
  | .reporting t o j => .reporting (t.behind g limit) (o.behind g) (j.behind g)
  | .finished r => .finished (resultBehind g r)

/-- A heap and what a thread is doing in it, both moved. -/
def turnBehind (g : Heap) (limit : ℕ) (p : Heap × Activity) : Heap × Activity :=
  (p.1.behind g, p.2.behind g limit)

/-! ### What does not move -/

namespace Frame

variable (g : Heap) (f : Frame)

@[simp] theorem code_behind : (f.behind g).code = f.code.behind g := rfl

@[simp] theorem pc_behind : (f.behind g).pc = f.pc := rfl

@[simp] theorem stack_behind : (f.behind g).stack = f.stack.map (Value.behind g) := rfl

@[simp] theorem jumped_behind : (f.behind g).jumped = f.jumped := rfl

@[simp] theorem lastLine_behind : (f.behind g).lastLine = f.lastLine := rfl

end Frame

namespace Code

variable (g : Heap) (c : Code)

@[simp] theorem instruction?_behind (i : ℕ) : (c.behind g).instruction? i = c.instruction? i := rfl

@[simp] theorem line?_behind (i : ℕ) : (c.behind g).line? i = c.line? i := rfl

@[simp] theorem startsLine_behind (i : ℕ) : (c.behind g).startsLine i = c.startsLine i := rfl

@[simp] theorem target?_behind (l : Label) : (c.behind g).target? l = c.target? l := rfl

@[simp] theorem handler?_behind (i : ℕ) : (c.behind g).handler? i = c.handler? i := rfl

@[simp] theorem isGenerator_behind : (c.behind g).isGenerator = c.isGenerator := rfl

theorem const?_behind (k : ℕ) : (c.behind g).const? k = (c.const? k).map (Value.behind g) := by
  rw [const?, const?, Code.behind, Array.getElem?_map]

end Code

/-- The frame of a call with moved arguments is the moved one. -/
theorem Frame.start_behind (g : Heap) (a : ℕ) (c : Code) (args : List Value) :
    Frame.start a (c.behind g) (args.map (Value.behind g)) =
      (Frame.start a c args).map (Frame.behind g) := by
  unfold Frame.start
  rw [List.length_map]
  show (if args.length = c.params then _ else _) = _
  split
  · simp [Except.map, Frame.behind, Code.behind, Value.behind]
  · rfl

theorem Iteration.next_behind (g : Heap) (it : Iteration) :
    (it.behind g).next = it.next.map fun p => (p.1.behind g, p.2.behind g) := by
  cases it with
  | items rest => cases rest <;> rfl
  | range next stop =>
      simp only [Iteration.behind, Iteration.next]
      split <;> rfl

namespace Thread

variable (g : Heap) (limit : ℕ) (h : Heap) (t : Thread)

@[simp] theorem frame_behind : (t.behind g limit).frame = t.frame.behind g := rfl

theorem generator_behind : (t.behind g limit).top.generator =
    t.top.generator.map (g.generators.size + ·) := rfl

theorem pop?_behind : (t.behind g limit).pop? = t.pop?.map (Thread.behind g limit) := by
  obtain ⟨l, top, below, depth, hdepth⟩ := t
  cases below <;> rfl

/-! ### From one instruction to the next -/

theorem fetch_behind : (t.behind g limit).fetch = t.fetch.behind g limit := by
  unfold fetch
  simp only [frame_behind, Frame.code_behind, Frame.pc_behind, Frame.jumped_behind,
    Frame.lastLine_behind, Code.instruction?_behind, Code.line?_behind, Code.startsLine_behind]
  cases t.frame.code.instruction? t.frame.pc with
  | none => rfl
  | some i =>
      cases t.frame.code.line? t.frame.pc with
      | none => rfl
      | some line =>
          by_cases hline : (t.frame.code.startsLine t.frame.pc &&
              (t.frame.jumped || t.frame.lastLine != some line)) = true
          · simp only [if_pos hline]
            exact (if_pos hline).trans rfl
          · simp only [if_neg hline]
            exact (if_neg hline).trans rfl

theorem next_behind (f : Frame) :
    (t.behind g limit).next (h.behind g) (f.behind g) = turnBehind g limit (t.next h f) :=
  congrArg (Prod.mk _) ((t.withFrame f.advance).fetch_behind g limit)

/-! ### Entering and leaving frames -/

theorem leaveRaising_behind (e : Exception) :
    (t.behind g limit).leaveRaising e = (t.leaveRaising e).behind g limit := by
  unfold leaveRaising
  rw [pop?_behind]
  cases t.pop? <;> rfl

theorem leaveReturning_behind (v : Value) :
    (t.behind g limit).leaveReturning (h.behind g) (v.behind g) =
      turnBehind g limit (t.leaveReturning h v) := by
  unfold leaveReturning
  rw [pop?_behind]
  cases t.pop? with
  | none => rfl
  | some caller => exact caller.next_behind g limit h (caller.frame.push v)

theorem settle_behind (s : GeneratorState) :
    (t.behind g limit).settle (h.behind g) (s.behind g) = (t.settle h s).behind g := by
  simp only [settle, generator_behind]
  cases t.top.generator with
  | none => rfl
  | some a => exact h.setGenerator_behind g a s

/-! ### Calls -/

theorem callNative_behind (callable : Value) (args : List Value) :
    callNative (h.behind g) (callable.behind g) (args.map (Value.behind g)) =
      outcomeBehind g (callNative h callable args) := by
  cases callable with
  | native f => exact h.runNative_behind g f args
  | _ => rfl

/-- What is no function is called like a native one. -/
theorem makeCall_of_not_isFunction {callable : Value} (hf : callable.isFunction = false)
    (args : List Value) : t.makeCall h callable args =
      match callNative h callable args with
      | (h', .ok v) =>
          (h', t.report .nativeReturn (.call callable args.head?) (.nativeReturned v))
      | (h', .error e) =>
          (h', t.report .nativeRaise (.call callable args.head?) (.nativeRaised e)) := by
  cases callable with
  | function a => cases hf
  | _ => rfl

theorem makeNative_behind {callable : Value} (hf : callable.isFunction = false)
    (args : List Value) :
    (t.behind g limit).makeCall (h.behind g) (callable.behind g) (args.map (Value.behind g)) =
      turnBehind g limit (t.makeCall h callable args) := by
  have hf' : (callable.behind g).isFunction = false := by
    cases callable with
    | function a => cases hf
    | _ => rfl
  rw [makeCall_of_not_isFunction h t hf, makeCall_of_not_isFunction _ _ hf', callNative_behind,
    List.head?_map]
  obtain ⟨h', r⟩ := callNative h callable args
  cases r <;> rfl

variable (hroom : (t.behind g limit).hasRoom = t.hasRoom)

include hroom in
theorem makeCall_behind (callable : Value) (args : List Value) :
    (t.behind g limit).makeCall (h.behind g) (callable.behind g) (args.map (Value.behind g)) =
      turnBehind g limit (t.makeCall h callable args) := by
  cases hf : callable.isFunction with
  | false => exact t.makeNative_behind g limit h hf args
  | true =>
      cases callable with
      | function a =>
          simp only [Value.behind, makeCall]
          rw [Heap.code?_behind]
          cases h.code? a with
          | none => rfl
          | some code =>
              simp only [Option.map_some]
              rw [Frame.start_behind]
              cases Frame.start a code args with
              | error e => rfl
              | ok frame =>
                  simp only [Except.map, Code.isGenerator_behind, hroom]
                  rw [h.addGenerator_behind g frame]
                  by_cases hgen : code.isGenerator = true
                  · simp only [if_pos hgen]
                    exact t.next_behind g limit _ (t.frame.push _)
                  · simp only [if_neg hgen]
                    split <;> rfl
      | _ => cases hf

/-! ### Loops -/

theorem produce_behind (item : Value) :
    (t.behind g limit).produce (h.behind g) (item.behind g) =
      turnBehind g limit (t.produce h item) := rfl

theorem exhaust_behind (exit : ℕ) :
    (t.behind g limit).exhaust (h.behind g) exit = turnBehind g limit (t.exhaust h exit) := by
  unfold exhaust
  simp only [frame_behind, Frame.stack_behind, ← List.map_tail]
  rfl

include hroom in
theorem advanceIterator_behind (exit : ℕ) (iterator : Value) :
    (t.behind g limit).advanceIterator (h.behind g) exit (iterator.behind g) =
      turnBehind g limit (t.advanceIterator h exit iterator) := by
  cases iterator with
  | iterator a =>
      simp only [Value.behind, advanceIterator]
      rw [Heap.iteration_behind, Iteration.next_behind]
      cases (h.iteration a).next with
      | none => exact t.exhaust_behind g limit h exit
      | some next =>
          obtain ⟨item, it⟩ := next
          simp only [Option.map_some]
          rw [Heap.setIteration_behind]
          rfl
  | generator a =>
      simp only [Value.behind, advanceIterator]
      rw [Heap.generatorState_behind]
      cases h.generatorState a with
      | running => rfl
      | finished => exact t.exhaust_behind g limit h exit
      | suspended frame =>
          have hrunning := h.setGenerator_behind g a .running
          have hfinished := h.setGenerator_behind g a .finished
          simp only [GeneratorState.behind] at hrunning hfinished ⊢
          rw [hroom, hrunning, hfinished]
          split <;> rfl
  | _ => rfl

theorem leaveLoop_behind :
    (t.behind g limit).leaveLoop (h.behind g) = turnBehind g limit (t.leaveLoop h) := by
  have hexit : (t.behind g limit).loopExit? = t.loopExit? := rfl
  unfold leaveLoop
  rw [hexit]
  cases t.loopExit? with
  | none => rfl
  | some exit => exact t.exhaust_behind g limit h exit

theorem stopIteration_behind (v : Value) :
    stopIteration (h.behind g) (v.behind g) = stopIteration h v := by
  cases v with
  | null => rfl
  | _ => exact congrArg (Exception.mk .stopIteration) (h.shown_behind g _)

/-! ### Instructions -/

theorem takeArgs_behind (f : Frame) (n : ℕ) :
    takeArgs (f.behind g) n =
      (takeArgs f n).map fun p => (p.1.map (Value.behind g), p.2.behind g) := by
  unfold takeArgs
  simp only [Frame.stack_behind, ← List.map_take, ← List.map_drop, List.length_map,
    ← List.map_reverse]
  split <;> rfl

theorem store_behind (slot : ℕ) (v : Value) (stack : List Value) :
    (t.behind g limit).store (h.behind g) slot (v.behind g) (stack.map (Value.behind g)) =
      turnBehind g limit (t.store h slot v stack) := by
  rw [store_eq, store_eq, ← next_behind]
  simp only [frame_behind, Frame.store, Frame.behind, Array.map_setIfInBounds]

include hroom in
/-- **An instruction does the same.** -/
theorem execute_behind (i : Instruction) :
    (t.behind g limit).execute (h.behind g) i = turnBehind g limit (t.execute h i) := by
  cases i with
  | nop => exact t.next_behind g limit h t.frame
  | loadConst k =>
      simp only [execute, frame_behind, Frame.code_behind, Code.const?_behind]
      cases t.frame.code.const? k with
      | none => rfl
      | some v => exact t.next_behind g limit h (t.frame.push v)
  | loadLocal slot =>
      have hlocal : (t.frame.behind g).locals[slot]? =
          t.frame.locals[slot]?.map (Value.behind g) := Array.getElem?_map
      simp only [execute, frame_behind, hlocal]
      cases t.frame.locals[slot]? with
      | none => rfl
      | some v => exact t.next_behind g limit h (t.frame.push v)
  | storeLocal slot =>
      have hsize : (t.frame.behind g).locals.size = t.frame.locals.size := Array.size_map
      simp only [execute, frame_behind, Frame.stack_behind, hsize]
      cases t.frame.stack with
      | nil => rfl
      | cons v stack =>
          simp only [List.map_cons]
          split
          · exact t.store_behind g limit h slot v stack
          · rfl
  | pop =>
      simp only [execute, frame_behind, Frame.stack_behind]
      cases t.frame.stack with
      | nil => rfl
      | cons v stack => exact t.next_behind g limit h { t.frame with stack }
  | buildList n =>
      simp only [execute, frame_behind, takeArgs_behind]
      cases takeArgs t.frame n with
      | error e => rfl
      | ok p =>
          obtain ⟨items, f⟩ := p
          have hlist := h.addList_behind g items.toArray
          rw [List.map_toArray] at hlist
          simp only [Except.map, hlist]
          exact t.next_behind g limit _ (f.push _)
  | binary op =>
      simp only [execute, frame_behind, Frame.stack_behind]
      rcases t.frame.stack with _ | ⟨w, _ | ⟨v, stack⟩⟩
      · rfl
      · rfl
      · simp only [List.map_cons, Heap.operate_behind]
        obtain ⟨h', r⟩ := h.operate op v w
        cases r with
        | error e => rfl
        | ok r => exact t.next_behind g limit h' { t.frame with stack := r :: stack }
  | call n =>
      simp only [execute, frame_behind, takeArgs_behind]
      cases takeArgs t.frame n with
      | error e => rfl
      | ok p =>
          obtain ⟨args, f⟩ := p
          simp only [Except.map, Frame.stack_behind]
          cases f.stack with
          | nil => rfl
          | cons callable stack =>
              simp only [List.map_cons, List.head?_map]
              rfl
  | ret | yield =>
      simp only [execute, frame_behind, Frame.stack_behind]
      cases t.frame.stack <;> rfl
  | raise =>
      simp only [execute, frame_behind, Frame.stack_behind]
      cases t.frame.stack with
      | nil => rfl
      | cons v stack => cases v <;> rfl
  | jump l =>
      simp only [execute, frame_behind, Frame.code_behind, Code.target?_behind]
      cases t.frame.code.target? l <;> rfl
  | popJumpIfFalse l =>
      simp only [execute, frame_behind, Frame.stack_behind, Frame.code_behind, Code.target?_behind]
      cases t.frame.stack with
      | nil => rfl
      | cons v stack =>
          simp only [List.map_cons, Heap.isTruthy_behind]
          split
          · rfl
          · cases t.frame.code.target? l <;> rfl
  | getIter =>
      simp only [execute, frame_behind, Frame.stack_behind]
      cases t.frame.stack with
      | nil => rfl
      | cons v stack =>
          simp only [List.map_cons, Heap.iterate_behind]
          obtain ⟨h', r⟩ := h.iterate v
          cases r with
          | error e => rfl
          | ok it => exact t.next_behind g limit h' { t.frame with stack := it :: stack }
  | forIter l =>
      simp only [execute, frame_behind, Frame.stack_behind, Frame.code_behind, Code.target?_behind]
      cases t.frame.code.target? l with
      | none => rfl
      | some exit =>
          cases t.frame.stack with
          | nil => rfl
          | cons iterator stack => exact t.advanceIterator_behind g limit h hroom exit iterator
  | matchException kind =>
      simp only [execute, frame_behind, Frame.stack_behind]
      cases t.frame.stack with
      | nil => rfl
      | cons v stack =>
          cases v with
          | exception e =>
              exact t.next_behind g limit h (t.frame.push (.bool (e.kind.isA kind)))
          | _ => rfl

include hroom in
theorem executeCurrent_behind :
    (t.behind g limit).executeCurrent (h.behind g) = turnBehind g limit (t.executeCurrent h) := by
  unfold executeCurrent
  simp only [frame_behind, Frame.code_behind, Frame.pc_behind, Code.instruction?_behind]
  cases t.frame.code.instruction? t.frame.pc with
  | none => rfl
  | some i => exact t.execute_behind g limit h hroom i

/-! ### Going on after an answer -/

theorem route_behind (e : Exception) :
    (t.behind g limit).route e = (t.route e).behind g limit := by
  unfold route
  simp only [frame_behind, Frame.code_behind, Frame.pc_behind, Code.handler?_behind]
  cases t.frame.code.handler? t.frame.pc with
  | none => rfl
  | some handler =>
      simp only [Frame.stack_behind, List.length_map, ← List.map_drop]
      rfl

theorem leaveByReturn_behind (v : Value) :
    (t.behind g limit).leaveByReturn (h.behind g) (v.behind g) =
      turnBehind g limit (t.leaveByReturn h v) := by
  have hreturning := (t.leaveReturning_behind g limit (t.settle h .finished) v)
  rw [← settle_behind] at hreturning
  simp only [leaveByReturn, generator_behind, pop?_behind]
  cases t.top.generator with
  | none => exact hreturning
  | some a =>
      cases t.pop? with
      | none => exact hreturning
      | some caller =>
          have hfinished := h.setGenerator_behind g a .finished
          simp only [GeneratorState.behind] at hfinished
          simp only [Option.map_some, hfinished, stopIteration_behind]
          rfl

theorem leaveByYield_behind (v : Value) :
    (t.behind g limit).leaveByYield (h.behind g) (v.behind g) =
      turnBehind g limit (t.leaveByYield h v) := by
  have hraising : ((t.behind g limit).settle (h.behind g) .finished,
      (t.behind g limit).leaveRaising .strayYield) =
        turnBehind g limit (t.settle h .finished, t.leaveRaising .strayYield) :=
    congrArg₂ Prod.mk (t.settle_behind g limit h .finished)
      (t.leaveRaising_behind g limit .strayYield)
  simp only [leaveByYield, generator_behind, pop?_behind]
  cases t.top.generator with
  | none => exact hraising
  | some a =>
      cases t.pop? with
      | none => exact hraising
      | some caller =>
          have hsuspended := h.setGenerator_behind g a (.suspended t.frame.advance)
          simp only [Option.map_some]
          have hproduce := caller.produce_behind g limit
            (h.setGenerator a (.suspended t.frame.advance)) v
          rw [← hsuspended] at hproduce
          exact hproduce

include hroom in
/-- **A thread goes on the same.** -/
theorem proceed_behind (j : Juncture) :
    (t.behind g limit).proceed (h.behind g) (j.behind g) =
      turnBehind g limit (t.proceed h j) := by
  cases j with
  | entered => exact congrArg (Prod.mk _) (t.fetch_behind g limit)
  | line | nativeRaised e => rfl
  | instruction => exact t.executeCurrent_behind g limit h hroom
  | called callable args => exact t.makeCall_behind g limit h hroom callable args
  | nativeReturned v => exact t.next_behind g limit h (t.frame.push v)
  | returning v => exact t.leaveByReturn_behind g limit h v
  | yielding v => exact t.leaveByYield_behind g limit h v
  | transferring pc jumped =>
      exact congrArg (Prod.mk _) ((t.withFrame (t.frame.goto pc jumped)).fetch_behind g limit)
  | stopped => exact t.leaveLoop_behind g limit h
  | raised e => exact congrArg (Prod.mk _) (t.route_behind g limit e)
  | handled e =>
      exact congrArg (Prod.mk _) ((t.withFrame (t.frame.push (.exception e))).fetch_behind g limit)
  | unwound e =>
      exact congrArg₂ Prod.mk (t.settle_behind g limit h .finished)
        (t.leaveRaising_behind g limit e)

end Thread

/-! ### Calls from outside -/

/-- **A call from outside does the same.** -/
theorem Activity.call_behind (g : Heap) {limit limit' : ℕ} (hroom : 0 < limit' ↔ 0 < limit)
    (h : Heap) (callable : Value) (args : List Value) :
    Activity.call (h.behind g) limit' (callable.behind g) (args.map (Value.behind g)) =
      turnBehind g limit' (Activity.call h limit callable args) := by
  have hnative : ∀ p : Heap × Except Exception Value,
      ((outcomeBehind g p).1, Activity.finished (outcomeBehind g p).2) =
        turnBehind g limit' (p.1, .finished p.2) := fun _ => rfl
  cases callable with
  | function a =>
      simp only [Value.behind, Activity.call]
      rw [Heap.code?_behind]
      cases h.code? a with
      | none => rfl
      | some code =>
          simp only [Option.map_some]
          rw [Frame.start_behind]
          cases Frame.start a code args with
          | error e => rfl
          | ok frame =>
              simp only [Except.map, Code.isGenerator_behind, hroom]
              rw [h.addGenerator_behind g frame]
              split
              · rfl
              · split <;> rfl
  | native f =>
      exact (congrArg (fun p => (p.1, Activity.finished p.2)) (h.runNative_behind g f args)).trans
        (hnative _)
  | _ => rfl

/-! ### What is told -/

/-- The place of a report is the same. -/
theorem Occurrence.site_behind (g : Heap) (o : Occurrence) : (o.behind g).site = o.site := by
  obtain ⟨event, unit, offset, detail⟩ := o
  cases unit <;> rfl

namespace Trace

theorem detailText_behind (h g : Heap) (d : Detail) :
    detailText (h.behind g) (d.behind g) = detailText h d := by
  cases d with
  | code v =>
      cases v with
      | none => rfl
      | some v => exact congrArg (fun text => some ("-> " ++ text)) (h.shown_behind g v)
  | call callable argument =>
      show some ((h.behind g).shownCallable (callable.behind g) ++ " " ++
        (h.behind g).shownArgument (argument.map (Value.behind g))) = _
      rw [Heap.shownCallable_behind, Heap.shownArgument_behind]
      rfl
  | exception e => exact congrArg some (h.shown_behind g e)
  | _ => rfl

/-- **The line of a report is the same.** -/
theorem line_behind (h g : Heap) (o : Occurrence) : line (h.behind g) (o.behind g) = line h o := by
  have hname : (o.behind g).payload.unit.name = o.payload.unit.name := by
    obtain ⟨event, unit, offset, detail⟩ := o
    cases unit <;> rfl
  rw [line, line, hname]
  show _ ++ (detailText (h.behind g) (o.payload.detail.behind g)).elim "" _ = _
  rw [detailText_behind]
  rfl

end Trace

end Tracepoint
