/-
**Callbacks.**

A tool registers a callback for an event.  A callback is known by its number; what it does is for
whoever runs the machine to say.  Its shape says which payloads it takes.

Main definitions:

* `Tracepoint.Callback` — callbacks;
* `Tracepoint.Action`, `Tracepoint.Answer` — what a callback answers to a report.
-/

import Tracepoint.Payload

set_option relaxedAutoImplicit false
set_option autoImplicit false

namespace Tracepoint

/-- A callback. -/
structure Callback where
  id : Nat
  shape : Shape
  deriving DecidableEq, Inhabited

def Callback.text (c : Callback) : String :=
  "Callback::" ++ c.shape.name

/-- What a callback asks for. -/
inductive Action where
  | proceed
  /-- No further reports of this event at this place. -/
  | disable
  deriving DecidableEq, Inhabited

/-- The answer of a callback: an action, or a fault, which the program meets as an exception. -/
abbrev Answer := Except Exception Action

end Tracepoint
