/-
**The machine: code that runs while tools listen.**

A script calls into the machine; code runs and reports; a report is dispatched to the callbacks of
the tools that listen; a callback is a script again, which may call into the machine.  All this is
one transition system.  Its states keep what waits for what in an explicit pile, so that a step is
no recursion, callbacks nest to any depth, and everything that ever happens can be read off the
sequence of states.

A step takes the state apart before it makes the next one, so that nothing but the next state
holds the heap, the memory and the locals, which can be changed in place.

Main definitions:

* `Tracepoint.Machine` — how callbacks behave and how reports are delivered;
* `Tracepoint.State` — the states: the world, the pile of callbacks that run, and the focus;
* `Tracepoint.Machine.advance`, `Tracepoint.Machine.step` — **one step**;
* `Tracepoint.Machine.run` — steps until nothing is left to do;
* `Tracepoint.State.occurrence?` — the occurrence that running code reports in a state.
-/

import Tracepoint.Machine.Script
import Tracepoint.Machine.Thread
import Tracepoint.Registry.Delivery

set_option relaxedAutoImplicit false
set_option autoImplicit false

namespace Tracepoint

/-! ### States -/

/-- How callbacks behave and how reports are delivered. -/
structure Machine (σ : Type) where
  /-- What a callback does with a payload. -/
  behave : Callback → Payload → Script σ
  policy : Policy

/-- The machine that follows the snapshot rule. -/
def Machine.of {σ : Type} (behave : Callback → Payload → Script σ) : Machine σ :=
  ⟨behave, .snapshot⟩

/-- Who goes on when a dispatch is over. -/
inductive Waiter (σ : Type) where
  | script (k : Except Exception Unit → Script σ)
  | thread (t : Thread) (j : Juncture) (k : Except Exception Value → Script σ)

/-- A callback that runs: whose it is, the dispatch it was called by, and who waits for that. -/
structure Level (σ : Type) where
  tool : Tool
  callback : Callback
  dispatch : Dispatch
  /-- Who waits for the dispatch. -/
  waiter : Waiter σ

/-- What happens next. -/
inductive Focus (σ : Type) where
  | script (s : Script σ)
  | dispatch (d : Dispatch) (w : Waiter σ)
  | thread (a : Activity) (k : Except Exception Value → Script σ)

/-- A state of the machine. -/
structure State (σ : Type) where
  world : World σ
  /-- The callbacks that run, the innermost first. -/
  levels : List (Level σ)
  focus : Focus σ

namespace State

variable {σ : Type}

def initial (w : World σ) (s : Script σ) : State σ := ⟨w, [], .script s⟩

/-- The state after a thread has gone on, which changes the heap. -/
@[inline] def follow (w : World σ) (levels : List (Level σ)) (go : Heap → Heap × Activity)
    (k : Except Exception Value → Script σ) : State σ :=
  match w with
  | ⟨registry, heap, memory⟩ =>
      let (heap, activity) := go heap
      ⟨⟨registry, heap, memory⟩, levels, .thread activity k⟩

/-- The state in which whoever waited for a dispatch goes on with its result. -/
def wake (w : World σ) (levels : List (Level σ)) (waiter : Waiter σ)
    (r : Except Exception Unit) : State σ :=
  match waiter with
  | .script k => ⟨w, levels, .script (k r)⟩
  | .thread t j k => follow w levels (fun h => t.resume h j r) k

def isOver (s : State σ) : Bool :=
  match s.focus, s.levels with
  | .script (.answer _), [] => true
  | _, _ => false

/-- The occurrence that running code reports in this state. -/
def occurrence? (s : State σ) : Option Occurrence :=
  match s.focus with
  | .thread (.reporting _ o _) _ => some o
  | _ => none

end State

/-! ### Steps -/

namespace Machine

variable {σ : Type}

/-- Opens the dispatch of an occurrence, unless nobody has armed the event. -/
def openDispatch (m : Machine σ) (w : World σ) (levels : List (Level σ)) (o : Occurrence)
    (waiter : Waiter σ) : State σ :=
  if m.policy.opens w.registry o.event then ⟨w, levels, .dispatch (w.registry.dispatch o) waiter⟩
  else State.wake w levels waiter (.ok ())

/-- Goes on with a dispatch: the callback of the next tool runs, unless the tool is to be passed
over or its callback takes another shape. -/
def advanceDispatch (m : Machine σ) (w : World σ) (levels : List (Level σ)) (d : Dispatch)
    (waiter : Waiter σ) : State σ :=
  match d.pending with
  | [] => State.wake w levels waiter (.ok ())
  | (tool, snapshot) :: rest =>
      let d' := { d with pending := rest }
      match m.policy.choose w.registry d tool snapshot with
      | none => ⟨w, levels, .dispatch d' waiter⟩
      | some callback =>
          if callback.shape = d.occurrence.payload.shape then
            ⟨w, ⟨tool, callback, d', waiter⟩ :: levels,
              .script (m.behave callback d.occurrence.payload)⟩
          else ⟨w, levels, .dispatch d' waiter⟩

/-- Goes on after a callback has answered. -/
def advanceAnswer (w : World σ) (level : Level σ) (rest : List (Level σ)) : Answer → State σ
  | .error fault => State.wake w rest level.waiter (.error fault)
  | .ok .proceed => ⟨w, rest, .dispatch level.dispatch level.waiter⟩
  | .ok .disable =>
      ⟨{ w with registry := w.registry.disable level.tool level.dispatch.occurrence.site }, rest,
        .dispatch level.dispatch level.waiter⟩

/-- Goes on with a script.  At the answer of a script that no callback runs, nothing is left to
do. -/
def advanceScript (m : Machine σ) (w : World σ) (levels : List (Level σ)) : Script σ → State σ
  | .answer a =>
      match levels with
      | [] => ⟨w, [], .script (.answer a)⟩
      | level :: rest => advanceAnswer w level rest a
  | .inspect k =>
      let script := k w
      ⟨w, levels, .script script⟩
  | .remember f next =>
      match w with
      | ⟨registry, heap, memory⟩ => ⟨⟨registry, heap, f memory⟩, levels, .script next⟩
  | .operate op k =>
      let (registry, reply) := w.registry.apply op
      ⟨{ w with registry }, levels, .script (k reply)⟩
  | .allocate lists next => ⟨{ w with heap := w.heap.addLists lists }, levels, .script next⟩
  | .setItems a items next => ⟨{ w with heap := w.heap.setItems a items }, levels, .script next⟩
  | .fire o k => m.openDispatch w levels o (.script k)
  | .call limit callable args k =>
      State.follow w levels (fun h => Activity.call h limit callable args) k

/-- The state after one step; the same state if nothing is left to do. -/
def advance (m : Machine σ) : State σ → State σ
  | ⟨w, levels, focus⟩ =>
      match focus with
      | .script script => m.advanceScript w levels script
      | .dispatch d waiter => m.advanceDispatch w levels d waiter
      | .thread (.finished r) k => ⟨w, levels, .script (k r)⟩
      | .thread (.reporting t o j) k => m.openDispatch w levels o (.thread t j k)

/-- **One step**, unless nothing is left to do. -/
def step (m : Machine σ) (s : State σ) : Option (State σ) :=
  if s.isOver then none else some (m.advance s)

/-! ### Runs -/

/-- The world in which at most `fuel` steps leave nothing to do; nothing if they do not suffice. -/
def run (m : Machine σ) : Nat → State σ → Option (World σ)
  | 0, _ => none
  | fuel + 1, s => if s.isOver then some s.world else m.run fuel (m.advance s)

/-- The number of steps that a script is given before it is taken to run for ever. -/
def patience : Nat := 0x4000000000000000

def perform (m : Machine σ) (w : World σ) (s : Script σ) : Option (World σ) :=
  m.run patience (.initial w s)

theorem run_succ (m : Machine σ) (fuel : Nat) (s : State σ) :
    m.run (fuel + 1) s = (m.step s).elim (some s.world) (m.run fuel) := by
  rw [run, step]
  split <;> rfl

end Machine

end Tracepoint
