/-
**Requests and rules.**

A scenario is carried out as a list of requests: operations on the registry, questions, reports
and calls.  A callback of a scenario follows rules: the first rule whose guard holds says what the
callback remembers, what it requests in its turn and what it answers.

Main definitions:

* `Tracepoint.Scenario.Request`, `Tracepoint.Scenario.CallbackSpec`, `Tracepoint.Scenario.Rule` —
  requests, callbacks and rules;
* `Tracepoint.Scenario.Guard` — when a rule applies;
* `Tracepoint.Scenario.Reply` — what a request comes to.
-/

import Tracepoint.Registry
import Tracepoint.Scenario.Literal
import Tracepoint.Value.Shown

set_option relaxedAutoImplicit false
set_option autoImplicit false

namespace Tracepoint.Scenario

/-! ### Guards -/

/-- When a rule applies; what is not given does not matter. -/
structure Guard where
  /-- How often the callback has run, this time included. -/
  count : Option Nat
  /-- The least number of times that the callback has run. -/
  minCount : Option Nat
  code : Option String
  offset : Option Nat
  line : Option Nat

/-- Whether a rule applies when a callback runs for the `n`-th time. -/
def Guard.holds (g : Guard) (n : Nat) (p : Payload) : Bool :=
  g.count.all (· == n) && g.minCount.all (· ≤ n) && g.code.all (· == p.unit.name) &&
    g.offset.all (· == p.offset) && g.line.all (some · == p.line?)

/-! ### Requests -/

/-- A code unit that a request names. -/
inductive UnitSpec where
  | built (index : Nat)
  | foreign (number : Nat) (name : String) (firstLine : Nat)

/-- What a request reports. -/
inductive DetailSpec where
  | code (value : Option Literal)
  | call (callable : Literal) (argument : Option Literal)
  | line (n : Nat)
  | instruction
  | exception (e : Literal)
  | branch (target : Nat)

mutual

/-- What is asked for.  Tools, events and sets are given as they are written, which may be
wrong. -/
inductive Request where
  | claim (tool : Nat) (name : String)
  | free (tool : Nat)
  | clear (tool : Nat)
  | getTool (tool : Nat)
  | register (tool : Nat) (event : String) (callback : CallbackChoice)
  | getEvents (tool : Nat)
  | setEvents (tool : Nat) (bits : UInt32)
  | setEventsRaw (tool : Nat) (bits : UInt32)
  | getLocal (tool : Nat) (unit : UnitSpec)
  | setLocal (tool : Nat) (unit : UnitSpec) (bits : UInt32)
  | allEvents
  | isArmed (event : String)
  | restart
  /-- Reports an occurrence; the detail depends on the event. -/
  | fire (event : String) (unit : UnitSpec) (offset : Nat) (detail : Shape → DetailSpec)
  /-- Calls a value; the result may be given a name. -/
  | call (callable : Literal) (args : List Literal) (save : Option String)
  | shown (value : Literal)
  | equal (a b : Literal)

/-- A callback to register. -/
inductive CallbackChoice where
  | remove
  | named (name : String)
  | make (spec : CallbackSpec)

/-- A callback: its name, its shape and its rules. -/
inductive CallbackSpec where
  | mk (name : String) (shape : Shape) (rules : List Rule)

/-- A rule: when it applies, the name under which the value of the report is remembered, what is
requested and what is answered. -/
inductive Rule where
  | mk (guard : Guard) (save : Option String) (requests : List Request) (answer : Answer)

end

def Rule.guard : Rule → Guard
  | mk guard _ _ _ => guard

/-! ### Replies -/

/-- A value as it is told: its type, how it is shown and whether it counts as true. -/
structure Told where
  typeName : String
  text : String
  truthy : Bool
  deriving DecidableEq, Inhabited

def tell (h : Heap) (v : Value) : Told := ⟨v.typeName, h.shown v, h.isTruthy v⟩

/-- What a request comes to. -/
inductive Reply where
  | done
  | name (name : Option String)
  /-- The names of the callback that was replaced, and how it is shown. -/
  | replaced (names : List String) (text : String)
  | events (s : EventSet)
  | table (rows : List (Event × ToolSet))
  | flag (b : Bool)
  | value (v : Told)
  | raised (e : Exception)
  | refused (e : MonitorError)
  | misread (e : Misread)
  deriving Inhabited

/-- What is written into the log. -/
inductive Entry where
  | line (text : String)
  /-- A request of a callback came to something, at a version of the registry. -/
  | reply (callback : String) (r : Reply) (version : Nat)

end Tracepoint.Scenario
