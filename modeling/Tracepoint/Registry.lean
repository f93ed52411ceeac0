/-
**The registry: who is told about what.**

The registry keeps its tables together with the union of all armed events, so that one look at it
settles whether an event has to be reported at all, and with a version.  It is changed by
operations.  An operation looks at what it is given and then edits the tables in place; when the
edit has come to its end, the union of armed events is computed anew and the version grows by one.

An operation that is refused has stopped somewhere on this way.  It leaves behind what there is at
that moment; that this is the registry from before is a matter of where each operation looks and
where it writes.

Main definitions:

* `Tracepoint.Registry` — the registry;
* `Tracepoint.Attempt`, `Tracepoint.Registry.mutate` — what may be refused, and how an edit of the
  tables becomes a change of the registry;
* `Tracepoint.Operation` — the operations, and `Tracepoint.Registry.perform` — **what they do**;
* `Tracepoint.Registry.target?` — the callback of a tool that an event at a place goes to;
* `Tracepoint.Registry.disable` — no further reports of an event at a place to a tool;
* `Tracepoint.Registry.allEvents` — the tools that have armed each event.
-/

import Tracepoint.Registry.Tables

set_option relaxedAutoImplicit false
set_option autoImplicit false

namespace Tracepoint

/-- The tables with what follows from them. -/
structure Registry where
  tables : Tables
  /-- The events that some tool has armed somewhere, as they are delivered. -/
  armed : EventSet
  /-- The number of changes so far. -/
  version : Nat
  deriving Inhabited

/-- An operation on the registry. -/
inductive Operation where
  /-- Take a slot for a tool of the given name. -/
  | claim (tool : Tool) (name : String)
  /-- Give a slot back. -/
  | free (tool : Tool)
  /-- Forget everything about a tool but its name. -/
  | clear (tool : Tool)
  /-- Put a callback, or none, in the place of the present one. -/
  | register (tool : Tool) (event : Event) (callback : Option Callback)
  /-- Arm events everywhere, in the place of those armed so far. -/
  | setGlobal (tool : Tool) (events : EventSet)
  /-- Arm the events of a raw word everywhere. -/
  | setGlobalBits (tool : Tool) (bits : UInt32)
  /-- Arm further events in a code unit, in the place of those armed so far. -/
  | setLocal (tool : Tool) (code : CodeId) (events : EventSet)
  /-- Report again what is disabled. -/
  | restart
  deriving Inhabited

namespace Registry

/-! ### Look-ups -/

def empty : Registry := ⟨.empty, ∅, 0⟩

/-- Whether an event has to be reported at all. -/
def isArmed (r : Registry) (e : Event) : Bool := r.armed.has e

/-- The callback of a tool that an event at a place goes to. -/
def target? (r : Registry) (t : Tool) (site : Site) : Option Callback := r.tables.target? t site

/-- The tools that an event at a place goes to, in ascending order, with their callbacks. -/
def targets (r : Registry) (site : Site) : List (Tool × Callback) :=
  Tool.all.filterMap fun t => (r.target? t site).map fun c => (t, c)

def disabledCount (r : Registry) : Nat :=
  Tool.all.foldl (fun n t => n + (r.tables.disabled.get t).size) 0

/-- Every event that some tool has armed somewhere, with those tools. -/
def allEvents (r : Registry) : List (Event × ToolSet) :=
  (Event.all.map fun e => (e, ToolSet.filter fun t => (r.tables.anywhere t).has e)).filter
    fun row => !row.2.isEmpty

end Registry

/-- A change of the registry in place.  If it is refused half-way, the registry is what it has made
of it so far. -/
abbrev Attempt := EStateM MonitorError Registry

namespace Registry

/-! ### Changes -/

/-- The registry with edited tables, the union of armed events and the version brought up to
date. -/
def publish (r : Registry) (tables : Tables) : Registry := ⟨tables, tables.armed, r.version + 1⟩

/-- Edits the tables.  If the edit is refused, they stay as it has left them, and nothing else
happens. -/
def mutate {α : Type} (edit : Edit α) : Attempt α := fun r =>
  match edit.run r.tables with
  | .ok a tables => .ok a (r.publish tables)
  | .error e tables => .error e { r with tables }

/-- Refuses a set of events that names derived ones without the one they accompany. -/
def checkEvents (events : EventSet) : Attempt Unit := do
  if events.armsDerivedAlone then throw (.derivedWithoutCall events)

/-- Refuses a callback of another shape than the event's. -/
def checkShape (event : Event) (c : Callback) : Attempt Unit := do
  if c.shape ≠ event.shape then throw (.shapeMismatch event c.shape)

/-- Puts a callback, or none, in the place of the present one. -/
def register (t : Tool) (e : Event) : Option Callback → Attempt (Option Callback)
  | none => mutate (Edit.register t e none)
  | some c => do
      checkShape e c
      mutate (Edit.register t e (some c))

/-- Arms events everywhere. -/
def setGlobal (t : Tool) (events : EventSet) : Attempt Unit := do
  checkEvents events
  mutate (Edit.setGlobal t events)

/-- Arms the events of a raw word everywhere. -/
def setGlobalBits (t : Tool) (bits : UInt32) : Attempt Unit :=
  match EventSet.ofBits bits with
  | .error e => throw (.unknownEventBits e)
  | .ok events => setGlobal t events

/-- Arms further events in a code unit. -/
def setLocal (t : Tool) (code : CodeId) (events : EventSet) : Attempt Unit := do
  checkEvents events
  mutate (Edit.setLocal t code events)

/-- Reports again what is disabled. -/
def restart (r : Registry) : Registry :=
  { r with tables := r.tables.enable, version := r.version + 1 }

/-- Disables an event at a place for a tool, unless that is done already. -/
def disable (r : Registry) (t : Tool) (site : Site) : Registry :=
  let sites := r.tables.disabled.get t
  if sites.contains site then r
  else { r with tables := r.tables.setDisabled t (sites.insert site), version := r.version + 1 }

/-! ### Operations -/

/-- **What an operation does.**  The callback that is told is the one that was replaced. -/
def perform : Operation → Attempt (Option Callback)
  | .claim t name => do mutate (Edit.claim t name); return none
  | .free t => do let _ ← mutate (Edit.free t); return none
  | .clear t => do mutate (Edit.clear t); return none
  | .register t e c => register t e c
  | .setGlobal t events => do setGlobal t events; return none
  | .setGlobalBits t bits => do setGlobalBits t bits; return none
  | .setLocal t code events => do setLocal t code events; return none
  | .restart => do modify restart; return none

/-- An operation: the registry that it leaves behind and the reply. -/
def apply (r : Registry) (op : Operation) : Registry × Except MonitorError (Option Callback) :=
  match (perform op).run r with
  | .ok previous r => (r, .ok previous)
  | .error e r => (r, .error e)

end Registry

end Tracepoint
