/-
**Events: the kinds of occurrence that can be reported.**

A running program reports fifteen kinds of occurrence.  Each kind has a fixed place in the order
below, a canonical name and a *shape*, which says what is told about an occurrence beyond where it
happened.

Two kinds, the return and the failure of a native callee, are *derived*: they are never armed on
their own but accompany `Event.call`, their parent.

Main definitions:

* `Tracepoint.Shape`, `Tracepoint.Event` — the shapes and the kinds of event;
* `Tracepoint.Event.index`, `Tracepoint.Event.all` — the fixed order;
* `Tracepoint.Event.parent?`, `Tracepoint.Event.gate` — the event that is armed for this one;
* `Tracepoint.Event.parse?` — the event of a name.
-/

import Tracepoint.Text.Blank
import Tracepoint.Text.LetterCase

set_option relaxedAutoImplicit false
set_option autoImplicit false

namespace Tracepoint

/-! ### Shapes -/

/-- What is told about an occurrence beyond its code unit and its offset. -/
inductive Shape where
  /-- A value may be told: what a frame returned or yielded. -/
  | code
  | call
  | line
  /-- Nothing more. -/
  | instruction
  | exception
  /-- Where control goes. -/
  | branch
  deriving DecidableEq, Inhabited

def Shape.name : Shape → String
  | code => "code"
  | call => "call"
  | line => "line"
  | instruction => "instruction"
  | exception => "exception"
  | branch => "branch"

/-! ### Events -/

/-- A kind of occurrence. -/
inductive Event where
  /-- A frame begins to run. -/
  | frameStart
  /-- A suspended frame goes on. -/
  | frameResume
  /-- A frame returns. -/
  | frameReturn
  /-- A frame yields and is suspended. -/
  | frameYield
  | call
  | line
  /-- An instruction is about to be executed. -/
  | instruction
  /-- Control is transferred unconditionally. -/
  | jump
  /-- Control is transferred, or not, on a condition. -/
  | branch
  /-- A generator returns inside a loop over it. -/
  | stopIteration
  /-- An exception begins to travel in a frame. -/
  | raise
  /-- A handler takes an exception. -/
  | exceptionHandled
  /-- An exception leaves a frame. -/
  | frameUnwind
  /-- A native callee returned. -/
  | nativeReturn
  /-- A native callee failed. -/
  | nativeRaise
  deriving DecidableEq, Inhabited

namespace Event

def all : List Event :=
  [frameStart, frameResume, frameReturn, frameYield, call, line, instruction, jump, branch,
    stopIteration, raise, exceptionHandled, frameUnwind, nativeReturn, nativeRaise]

/-- The place of an event in the fixed order. -/
def index : Event → Fin 15
  | frameStart => 0
  | frameResume => 1
  | frameReturn => 2
  | frameYield => 3
  | call => 4
  | line => 5
  | instruction => 6
  | jump => 7
  | branch => 8
  | stopIteration => 9
  | raise => 10
  | exceptionHandled => 11
  | frameUnwind => 12
  | nativeReturn => 13
  | nativeRaise => 14

def name : Event → String
  | frameStart => "PY_START"
  | frameResume => "PY_RESUME"
  | frameReturn => "PY_RETURN"
  | frameYield => "PY_YIELD"
  | call => "CALL"
  | line => "LINE"
  | instruction => "INSTRUCTION"
  | jump => "JUMP"
  | branch => "BRANCH"
  | stopIteration => "STOP_ITERATION"
  | raise => "RAISE"
  | exceptionHandled => "EXCEPTION_HANDLED"
  | frameUnwind => "PY_UNWIND"
  | nativeReturn => "C_RETURN"
  | nativeRaise => "C_RAISE"

def shape : Event → Shape
  | frameStart | frameResume | frameReturn | frameYield => .code
  | call | nativeReturn | nativeRaise => .call
  | line => .line
  | instruction => .instruction
  | jump | branch => .branch
  | stopIteration | raise | exceptionHandled | frameUnwind => .exception

/-- The event that a derived event accompanies. -/
def parent? : Event → Option Event
  | nativeReturn | nativeRaise => some call
  | _ => none

/-- Whether an event is armed through its parent only. -/
def isDerived (e : Event) : Bool :=
  e.parent?.isSome

/-- The event that has to be armed for this one to be delivered: its parent if it is derived, and
otherwise the event itself. -/
def gate (e : Event) : Event :=
  e.parent?.getD e

/-- The event with this name, whatever the case of its letters and the blanks around it. -/
def parse? (text : String) : Option Event :=
  all.find? fun e => Text.sameIgnoringCase e.name (Text.trim text)

/-! ### The order is complete -/

theorem mem_all (e : Event) : e ∈ all := by
  cases e <;> decide

/-- The list is in the order of the places. -/
theorem getElem?_all (e : Event) : all[e.index.val]? = some e := by
  cases e <;> rfl

/-- Different events have different places. -/
theorem index_injective {e f : Event} (h : e.index = f.index) : e = f := by
  have he := getElem?_all e
  rw [h, getElem?_all f] at he
  exact (Option.some.inj he).symm

@[simp] theorem index_inj {e f : Event} : e.index = f.index ↔ e = f :=
  ⟨index_injective, congrArg index⟩

/-- A parent is not derived itself. -/
theorem parent?_gate (e : Event) : e.gate.parent? = none := by
  cases e <;> rfl

@[simp] theorem gate_gate (e : Event) : e.gate.gate = e.gate := by
  cases e <;> rfl

end Event

end Tracepoint
