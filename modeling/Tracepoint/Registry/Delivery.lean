/-
**Delivery of one report.**

A report that has to be made is turned into a dispatch: the tools it goes to, with their
callbacks, as they are at that moment, and the version of the registry.  While the dispatch is
under way the callbacks may change the registry.  Before each tool is called, the callback from
the beginning is used as long as the version is still the same; otherwise the registry is asked
anew, and a tool that the report does not go to any more is passed over.

Main definitions:

* `Tracepoint.Occurrence.site` — the event and the place of a report;
* `Tracepoint.Dispatch`, `Tracepoint.Registry.dispatch` — a report under way, and its beginning;
* `Tracepoint.Policy` — how a dispatch is opened and whom it calls next;
* `Tracepoint.Policy.snapshot` — **the rule that is followed**.
-/

import Tracepoint.Registry

set_option relaxedAutoImplicit false
set_option autoImplicit false

namespace Tracepoint

def Occurrence.site (o : Occurrence) : Site :=
  ⟨o.event, o.payload.code, o.payload.offset⟩

/-- A report under way. -/
structure Dispatch where
  occurrence : Occurrence
  /-- The tools that are still to be called, with their callbacks at the beginning. -/
  pending : List (Tool × Callback)
  /-- The version of the registry at the beginning. -/
  version : Nat
  deriving Inhabited

def Registry.dispatch (r : Registry) (o : Occurrence) : Dispatch :=
  ⟨o, r.targets o.site, r.version⟩

/-- How a dispatch is opened and whom it calls next. -/
structure Policy where
  /-- Whether an event is reported at all. -/
  opens : Registry → Event → Bool
  /-- The callback to use for a pending tool, if it is still to be called. -/
  choose : Registry → Dispatch → Tool → Callback → Option Callback

/-- The callback from the beginning while the version is the same, and else the present one. -/
def Dispatch.choose (r : Registry) (d : Dispatch) (t : Tool) (c : Callback) : Option Callback :=
  if r.version = d.version then some c else r.target? t d.occurrence.site

/-- **The rule that is followed**: the union of armed events decides whether an event is reported,
and the snapshot is trusted until the version changes. -/
def Policy.snapshot : Policy := ⟨Registry.isArmed, Dispatch.choose⟩

end Tracepoint
