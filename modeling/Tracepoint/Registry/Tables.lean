/-
**The tables of the registry.**

The registry keeps what it knows in tables that all tools share: who owns the slots, the callbacks,
the events armed everywhere and in single code units, and the disabled sites.  Events armed in a
single code unit stand in a row with one set for each tool.  Only units in which some tool has armed
something have a row, so that a row is dropped when nothing is left in it.

An edit changes the tables in place.  Where it finds a reason to refuse what is asked for it stops,
and what it has written up to there stays written: nobody puts the old tables back.

Main definitions:

* `Tracepoint.Tables` — the tables, with what is looked up in them;
* `Tracepoint.Tables.target?` — the callback of a tool that an event at a place goes to;
* `Tracepoint.Tables.armed` — the union of all armed events, as they are delivered;
* `Tracepoint.Tables.setLocal`, `Tracepoint.Tables.wipe` — the writes that drop rows;
* `Tracepoint.Edit` — **changes in place**, and those that operations consist of.
-/

import Tracepoint.Callback
import Tracepoint.Registry.Error
import Tracepoint.Registry.Site

set_option relaxedAutoImplicit false
set_option autoImplicit false

namespace Tracepoint

/-- A callback, or none, for each event. -/
abbrev CallbackRow := Vector (Option Callback) 15

namespace CallbackRow

def blank : CallbackRow := Vector.replicate 15 none

def put (row : CallbackRow) (e : Event) (c : Option Callback) : CallbackRow := row.set e.index c

end CallbackRow

/-- A set of events for each tool. -/
abbrev EventRow := Vector EventSet 6

namespace EventRow

def blank : EventRow := Vector.replicate 6 ∅

def put (row : EventRow) (t : Tool) (events : EventSet) : EventRow := row.set t events

/-- Whether no tool has a set that is not empty. -/
def isBlank (row : EventRow) : Bool := row.all EventSet.isEmpty

/-- What is left of a row without the events of a tool, unless this is nothing. -/
def without (row : EventRow) (t : Tool) : Option EventRow :=
  let rest := row.put t ∅
  if rest.isBlank then none else some rest

end EventRow

/-- The tables that all tools share. -/
structure Tables where
  /-- The names of the tools that own slots. -/
  owners : Vector (Option String) 6
  /-- The callbacks of each tool for each event. -/
  callbacks : Vector CallbackRow 6
  /-- The events armed in every code unit. -/
  globalEvents : EventRow
  /-- The further events armed in single code units. -/
  localEvents : Std.ExtTreeMap CodeId EventRow
  /-- The sites that are not reported to each tool. -/
  disabled : Vector SiteSet 6

namespace Tables

def empty : Tables where
  owners := Vector.replicate 6 none
  callbacks := Vector.replicate 6 .blank
  globalEvents := .blank
  localEvents := ∅
  disabled := Vector.replicate 6 ∅

instance : Inhabited Tables := ⟨empty⟩

/-! ### Look-ups -/

section Lookups

variable (tables : Tables) (t : Tool)

def owner? : Option String := tables.owners.get t

def inUse : Bool := (tables.owner? t).isSome

def callback? (e : Event) : Option Callback := (tables.callbacks.get t).get e.index

/-- The events that a tool has armed everywhere. -/
def globalSet : EventSet := tables.globalEvents.get t

/-- The further events that a tool has armed in a code unit. -/
def localSet (code : CodeId) : EventSet :=
  (tables.localEvents[code]?.map fun row => row.get t).getD ∅

/-- The events that are delivered to a tool in a code unit. -/
def effective (code : CodeId) : EventSet :=
  (tables.globalSet t ∪ tables.localSet t code).delivered

/-- Whether an event, or the one it accompanies, is disabled for a tool at a place. -/
def isDisabled (site : Site) : Bool :=
  let sites := tables.disabled.get t
  sites.contains site ||
    site.event.parent?.any fun parent => sites.contains { site with event := parent }

/-- The callback of a tool that an event at a place goes to, if it goes to this tool. -/
def target? (site : Site) : Option Callback :=
  (tables.callback? t site.event).filter fun _ =>
    (tables.effective t site.code).has site.event && !tables.isDisabled t site

/-- The events that a tool has armed somewhere. -/
def anywhere : EventSet :=
  tables.globalSet t ∪ tables.localEvents.foldl (fun all _ row => all ∪ row.get t) ∅

/-- All events that some tool has armed somewhere, as they are delivered. -/
def armed : EventSet :=
  let everywhere := tables.globalEvents.foldl (· ∪ ·) ∅
  (tables.localEvents.foldl (fun all _ row => row.foldl (· ∪ ·) all) everywhere).delivered

end Lookups

/-! ### Writes -/

section Writes

variable (tables : Tables) (t : Tool)

def setOwner (owner : Option String) : Tables :=
  { tables with owners := tables.owners.set t owner }

def setCallback (e : Event) (c : Option Callback) : Tables :=
  { tables with callbacks := tables.callbacks.set t ((tables.callbacks.get t).put e c) }

/-- Other events are armed everywhere. -/
def setGlobal (events : EventSet) : Tables :=
  { tables with globalEvents := tables.globalEvents.put t events.stored }

/-- Other events are armed in a code unit, which may leave nothing in its row. -/
def setLocal (code : CodeId) (events : EventSet) : Tables :=
  let rows := tables.localEvents
  { tables with
    localEvents :=
      if events.stored.isEmpty then
        match rows[code]? with
        | none => rows
        | some row =>
            match row.without t with
            | none => rows.erase code
            | some row => rows.insert code row
      else rows.insert code ((rows[code]?.getD .blank).put t events.stored) }

def setDisabled (sites : SiteSet) : Tables :=
  { tables with disabled := tables.disabled.set t sites }

/-- Nothing is left of a tool but its name, and no row in which only this tool had anything. -/
def wipe : Tables where
  owners := tables.owners
  callbacks := tables.callbacks.set t .blank
  globalEvents := tables.globalEvents.put t ∅
  localEvents := tables.localEvents.filterMap fun _ row => row.without t
  disabled := tables.disabled.set t ∅

/-- Nothing is disabled any more. -/
def enable : Tables := { tables with disabled := Vector.replicate 6 ∅ }

/-- Everything is forgotten that is kept by code unit. -/
def forgetCode : Tables := { tables with localEvents := ∅ }.enable

end Writes

end Tables

/-! ### Changes in place -/

/-- A change of the tables in place.  If it is refused half-way, the tables are what it has made of
them so far. -/
abbrev Edit := EStateM MonitorError Tables

namespace Edit

/-- Takes a slot for a tool, unless it is taken. -/
def claim (t : Tool) (name : String) : Edit Unit := do
  match (← get).owner? t with
  | some owner => throw (.toolInUse t owner)
  | none => modify (·.setOwner t (some name))

/-- Takes the name of the owner out of a slot, and looks at it only then. -/
def release (t : Tool) : Edit String := do
  let owner ← modifyGet fun tables => (tables.owner? t, tables.setOwner t none)
  match owner with
  | some name => return name
  | none => throw (.toolNotInUse t)

/-- Refuses to go on if a slot has no owner. -/
def require (t : Tool) : Edit Unit := do
  if (← get).inUse t then return else throw (.toolNotInUse t)

/-- Puts a callback, or none, in the place of the present one, which is told. -/
def swap (t : Tool) (e : Event) (c : Option Callback) : Edit (Option Callback) :=
  modifyGet fun tables => (tables.callback? t e, tables.setCallback t e c)

/-- Gives a slot back.  With the last one, everything that is kept by code unit is forgotten. -/
def free (t : Tool) : Edit String := do
  let name ← release t
  modify (·.wipe t)
  if (← get).owners.all Option.isNone then modify (·.forgetCode)
  return name

/-- Forgets everything about a tool but its name. -/
def clear (t : Tool) : Edit Unit := do
  require t
  modify (·.wipe t)

/-- Registers a callback.  To take one away needs no owner. -/
def register (t : Tool) (e : Event) (c : Option Callback) : Edit (Option Callback) := do
  if c.isSome then require t
  swap t e c

/-- Arms events everywhere. -/
def setGlobal (t : Tool) (events : EventSet) : Edit Unit := do
  require t
  modify (·.setGlobal t events)

/-- Arms further events in a code unit. -/
def setLocal (t : Tool) (code : CodeId) (events : EventSet) : Edit Unit := do
  require t
  modify (·.setLocal t code events)

end Edit

end Tracepoint
