/-
**Refusals of the registry.**

Main definitions:

* `Tracepoint.MonitorError` — why an operation on the registry is refused;
* `Tracepoint.MonitorError.message` — the wording.
-/

import Tracepoint.EventSet
import Tracepoint.Tool

set_option relaxedAutoImplicit false
set_option autoImplicit false

namespace Tracepoint

/-- Why an operation on the registry is refused. -/
inductive MonitorError where
  | invalidTool (e : InvalidTool)
  | toolInUse (tool : Tool) (owner : String)
  | toolNotInUse (tool : Tool)
  | unknownEventBits (e : UnknownEventBits)
  | unknownEvent (e : UnknownEvent)
  /-- A set names derived events without the one they accompany. -/
  | derivedWithoutCall (events : EventSet)
  /-- A callback takes payloads of another shape than the event's. -/
  | shapeMismatch (event : Event) (found : Shape)
  deriving DecidableEq

def MonitorError.message : MonitorError → String
  | invalidTool e => e.message
  | toolInUse tool owner =>
      "tool " ++ toString tool.val ++ " is already in use by '" ++ owner ++ "'"
  | toolNotInUse tool => "tool " ++ toString tool.val ++ " is not in use"
  | unknownEventBits e => e.message
  | unknownEvent e => e.message
  | derivedWithoutCall events =>
      "cannot set C_RETURN or C_RAISE events independently (got " ++ events.text ++ ")"
  | shapeMismatch event found =>
      event.name ++ " is delivered with " ++ event.shape.name ++ " payloads, not " ++ found.name

end Tracepoint
