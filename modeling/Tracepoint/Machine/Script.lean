/-
**Scripts: what hosts and callbacks do.**

A script is a program of the world outside the machine: that of a host, or what a callback does
before it answers.  It may look at everything, keep a memory of its own, operate on the registry,
make and change lists, report occurrences itself and call into the machine.  It ends with an
answer.

Main definitions:

* `Tracepoint.World` — what scripts see and change;
* `Tracepoint.Script` — scripts.
-/

import Tracepoint.Heap
import Tracepoint.Registry

set_option relaxedAutoImplicit false
set_option autoImplicit false

namespace Tracepoint

/-- What scripts see and change: the registry, the heap and a memory of their own. -/
structure World (σ : Type) where
  registry : Registry
  heap : Heap
  memory : σ

instance {σ : Type} [Inhabited σ] : Inhabited (World σ) := ⟨⟨.empty, .empty, default⟩⟩

/-- What a host or a callback does. -/
inductive Script (σ : Type) where
  | answer (a : Answer)
  | inspect (k : World σ → Script σ)
  | remember (f : σ → σ) (next : Script σ)
  | operate (op : Operation) (k : Except MonitorError (Option Callback) → Script σ)
  /-- It makes lists with these items, at the next free addresses. -/
  | allocate (lists : Array (Array Value)) (next : Script σ)
  /-- It puts other items into a list. -/
  | setItems (address : Nat) (items : Array Value) (next : Script σ)
  /-- It reports an occurrence and goes on with the fault of a callback, if there is one. -/
  | fire (o : Occurrence) (k : Except Exception Unit → Script σ)
  /-- It calls a value in the machine, with at most `limit` activations at once, and goes on with
  the result. -/
  | call (limit : Nat) (callable : Value) (args : List Value)
      (k : Except Exception Value → Script σ)

namespace Script

def done {σ : Type} : Script σ := .answer (.ok .proceed)

instance {σ : Type} : Inhabited (Script σ) := ⟨done⟩

end Script

end Tracepoint
