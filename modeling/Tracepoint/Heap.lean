/-
**Frames and the heap.**

A frame is an activation of a code unit: where it is, its locals and its value stack.  The heap
holds what values refer to by address: code units, lists, iterators and generators.  A generator
keeps its frame while it is suspended; while it runs, the frame belongs to whoever runs it.

Main definitions:

* `Tracepoint.Frame`, `Tracepoint.Frame.start` — frames;
* `Tracepoint.Iteration`, `Tracepoint.Iteration.next` — what an iterator has still to give;
* `Tracepoint.GeneratorState`, `Tracepoint.Generator` — generators;
* `Tracepoint.Heap` — the heap, with allocation and update.
-/

import Tracepoint.Code

set_option relaxedAutoImplicit false
set_option autoImplicit false

namespace Tracepoint

/-! ### Frames -/

/-- An activation of a code unit. -/
structure Frame where
  address : Nat
  code : Code
  pc : Nat
  locals : Array Value
  /-- The value stack, from the top down. -/
  stack : List Value
  /-- The line of the last instruction that had one. -/
  lastLine : Option Nat
  /-- Whether the current instruction was reached by a jump. -/
  jumped : Bool
  started : Bool
  deriving Inhabited

namespace Frame

/-- The frame of a call.  The arguments are the first locals; the other locals are absent. -/
def start (address : Nat) (code : Code) (args : List Value) : Except Exception Frame :=
  if args.length = code.params then
    .ok {
      address, code, pc := 0
      locals := args.toArray ++ Array.replicate (code.locals - args.length) .null
      stack := [], lastLine := none, jumped := false, started := false }
  else .error (.wrongArguments code.name code.params args.length)

/-- The frame with another value in a local and another stack. -/
def store (f : Frame) (slot : Nat) (v : Value) (stack : List Value) : Frame :=
  { f with locals := f.locals.setIfInBounds slot v, stack }

def push (f : Frame) (v : Value) : Frame :=
  { f with stack := v :: f.stack }

def goto (f : Frame) (pc : Nat) (jumped : Bool) : Frame :=
  { f with pc, jumped }

def advance (f : Frame) : Frame :=
  f.goto (f.pc + 1) false

def offset (f : Frame) : Nat :=
  offsetOf f.pc

end Frame

/-! ### Iterators -/

/-- What an iterator has still to give. -/
inductive Iteration where
  | items (rest : List Value)
  /-- The integers from `next` up to `stop`, without `stop`. -/
  | range (next stop : Int64)
  deriving Inhabited

def Iteration.next : Iteration → Option (Value × Iteration)
  | items [] => none
  | items (v :: rest) => some (v, items rest)
  | range next stop => if next < stop then some (.int next, range (next + 1) stop) else none

/-! ### Generators -/

/-- What has become of the frame of a generator. -/
inductive GeneratorState where
  | suspended (frame : Frame)
  | running
  | finished
  deriving Inhabited

/-- A generator. -/
structure Generator where
  name : String
  state : GeneratorState
  deriving Inhabited

/-! ### The heap -/

/-- What values refer to by address. -/
structure Heap where
  codes : Array Code
  lists : Array (Array Value)
  iterators : Array Iteration
  generators : Array Generator
  deriving Inhabited

namespace Heap

def empty : Heap := ⟨#[], #[], #[], #[]⟩

def code? (h : Heap) (a : Nat) : Option Code := h.codes[a]?

def items (h : Heap) (a : Nat) : Array Value := (h.lists[a]?).getD #[]

def iteration (h : Heap) (a : Nat) : Iteration := (h.iterators[a]?).getD (.items [])

def generatorState (h : Heap) (a : Nat) : GeneratorState :=
  (h.generators[a]?.map Generator.state).getD .finished

def addCode (h : Heap) (c : Code) : Heap × Value :=
  let address := h.codes.size
  ({ h with codes := h.codes.push c }, .function address)

def addList (h : Heap) (items : Array Value) : Heap × Value :=
  let address := h.lists.size
  ({ h with lists := h.lists.push items }, .list address)

/-- The heap with more lists, at the next free addresses. -/
def addLists (h : Heap) (lists : Array (Array Value)) : Heap :=
  { h with lists := h.lists ++ lists }

def addIterator (h : Heap) (it : Iteration) : Heap × Value :=
  let address := h.iterators.size
  ({ h with iterators := h.iterators.push it }, .iterator address)

def addGenerator (h : Heap) (f : Frame) : Heap × Value :=
  let address := h.generators.size
  ({ h with generators := h.generators.push ⟨f.code.name, .suspended f⟩ }, .generator address)

/-- The heap after something was made, which is the value of a successful operation. -/
def succeed (made : Heap × Value) : Heap × Except Exception Value :=
  (made.1, .ok made.2)

def setItems (h : Heap) (a : Nat) (items : Array Value) : Heap :=
  { h with lists := h.lists.setIfInBounds a items }

def appendItem (h : Heap) (a : Nat) (v : Value) : Heap :=
  { h with lists := h.lists.modify a (·.push v) }

def setIteration (h : Heap) (a : Nat) (it : Iteration) : Heap :=
  { h with iterators := h.iterators.setIfInBounds a it }

def setGenerator (h : Heap) (a : Nat) (s : GeneratorState) : Heap :=
  { h with generators := h.generators.modify a fun g => { g with state := s } }

/-! ### What the changes do to the lists -/

theorem items_addList_self (h : Heap) (items : Array Value) :
    (h.addList items).1.items h.lists.size = items := by
  simp [Heap.items, addList]

/-- A new list leaves the others as they are. -/
theorem items_addList_of_lt {h : Heap} {a : Nat} (ha : a < h.lists.size) (items : Array Value) :
    (h.addList items).1.items a = h.items a := by
  simp [Heap.items, addList, Array.getElem?_push, Nat.ne_of_lt ha]

/-- An item is appended to its own list and to no other. -/
theorem items_appendItem {h : Heap} {a : Nat} (ha : a < h.lists.size) (b : Nat) (v : Value) :
    (h.appendItem a v).items b = if a = b then (h.items a).push v else h.items b := by
  by_cases hb : a = b
  · subst hb
    simp [Heap.items, appendItem, ha, Array.getElem_modify]
  · simp [Heap.items, appendItem, Array.getElem?_modify, hb]

end Heap

end Tracepoint
