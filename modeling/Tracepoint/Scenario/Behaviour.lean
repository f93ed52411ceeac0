/-
**What requests and callbacks do.**

Requests are scripts of the machine.  A callback counts how often it runs, writes a line into the
log, and follows the first of its rules that applies.

Main definitions:

* `Tracepoint.Scenario.Memory`, `Tracepoint.Scenario.Setting` — what changes during a scenario and
  what does not;
* `Tracepoint.Scenario.Request.script` — what a request does;
* `Tracepoint.Scenario.behave` — what a callback does.
-/

import Tracepoint.Machine.Script
import Tracepoint.Scenario.Request
import Tracepoint.Value.Equality

set_option relaxedAutoImplicit false
set_option autoImplicit false

namespace Tracepoint.Scenario

/-! ### Memory -/

/-- A callback that was made. -/
structure Made where
  name : String
  shape : Shape
  rules : List Rule
  runs : Nat

/-- What a scenario remembers. -/
structure Memory where
  /-- The callbacks that were made; a callback is known to the registry by its place here. -/
  made : Array Made
  names : Names
  log : Array Entry
  /-- What the latest request of the host came to. -/
  reply : Reply

/-- What does not change during a scenario. -/
structure Setting where
  codes : Array (Option Nat)
  maxDepth : Nat

/-- A script of a scenario. -/
abbrev Play := Script Memory

namespace Memory

def make (m : Memory) : CallbackSpec → Memory
  | .mk name shape rules => { m with made := m.made.push ⟨name, shape, rules, 0⟩ }

def write (m : Memory) (e : Entry) : Memory := { m with log := m.log.push e }

def define (m : Memory) (name : Option String) (v : Value) : Memory :=
  match name with
  | none => m
  | some name => { m with names := m.names.define name v }

def count (m : Memory) (id : Nat) : Memory :=
  { m with made := m.made.modify id fun c => { c with runs := c.runs + 1 } }

def find? (m : Memory) (name : String) : Option Callback :=
  (m.made.findFinIdx? fun c => c.name == name).map fun (id : Fin m.made.size) =>
    ⟨id, m.made[id].shape⟩

end Memory

/-! ### Requests -/

/-- Reads something and goes on with its value, or with the reply that it cannot be read. -/
def reading {α : Type} (r : Reading α) (fail : Reply → Play) (k : α → Play) : Play :=
  .inspect fun w =>
    match r.run (.start w.heap w.memory.names) with
    | .error e => fail (.misread e)
    | .ok (a, ledger) =>
        .allocate ledger.lists
          (.remember (fun m => { m with names := ledger.names }) (k a))

/-- Goes on with the outcome of a check, or with the reply that it failed. -/
def checking {α : Type} (r : Except MonitorError α) (fail : Reply → Play) (k : α → Play) : Play :=
  match r with
  | .error e => fail (.refused e)
  | .ok a => k a

def checkTool (n : Nat) : Except MonitorError Tool := (Tool.ofNat n).mapError .invalidTool

def checkEvent (text : String) : Except MonitorError Event :=
  (Event.parse text).mapError .unknownEvent

def checkBits (bits : UInt32) : Except MonitorError EventSet :=
  (EventSet.ofBits bits).mapError .unknownEventBits

/-- Goes on with the code unit that is meant. -/
def locating (setting : Setting) (u : UnitSpec) (fail : Reply → Play) (k : CodeUnit → Play) :
    Play :=
  match u with
  | .foreign number name firstLine => k (.foreign number name firstLine)
  | .built index =>
      match functionOf setting.codes index with
      | .error e => fail (.misread e)
      | .ok address =>
          .inspect fun w => k (.loaded address ((w.heap.code? address).getD default))

/-- Operates on the registry and goes on with what comes of it. -/
def operating (op : Operation) (k : Reply → Play) : Play :=
  .operate op fun
    | .ok _ => k .done
    | .error e => k (.refused e)

/-- Puts a callback in the place of the present one, which is told. -/
def registering (tool : Tool) (event : Event) (callback : Option Callback) (k : Reply → Play) :
    Play :=
  .operate (.register tool event callback) fun
    | .error e => k (.refused e)
    | .ok none => k .done
    | .ok (some previous) =>
        .inspect fun w =>
          k (.replaced ((w.memory.made[previous.id]?.map Made.name).toList) previous.text)

/-- The detail that is meant. -/
def readDetail (codes : Array (Option Nat)) : DetailSpec → Reading Detail
  | .code none => return .code none
  | .code (some v) => return .code (some (← v.read codes))
  | .call callable none => return .call (← callable.read codes) none
  | .call callable (some v) => do
      let callable ← callable.read codes
      return .call callable (some (← v.read codes))
  | .line n => return .line n
  | .instruction => return .instruction
  | .exception e => return .exception (← e.read codes)
  | .branch target => return .branch target

/-- **What a request does**, before it goes on with what it comes to. -/
def Request.script (setting : Setting) (request : Request) (k : Reply → Play) : Play :=
  match request with
  | .claim tool name => checking (checkTool tool) k fun t => operating (.claim t name) k
  | .free tool => checking (checkTool tool) k fun t => operating (.free t) k
  | .clear tool => checking (checkTool tool) k fun t => operating (.clear t) k
  | .getTool tool =>
      checking (checkTool tool) k fun t => .inspect fun w => k (.name (w.registry.tables.owner? t))
  | .register tool event choice =>
      checking (checkTool tool) k fun t =>
        checking (checkEvent event) k fun e =>
          match choice with
          | .remove => registering t e none k
          | .named name =>
              .inspect fun w =>
                match w.memory.find? name with
                | none => k (.misread (.unknownName name))
                | some c => registering t e (some c) k
          | .make spec =>
              .inspect fun w =>
                let c : Callback := ⟨w.memory.made.size, match spec with | .mk _ shape _ => shape⟩
                .remember (fun m => m.make spec) (registering t e (some c) k)
  | .getEvents tool =>
      checking (checkTool tool) k fun t =>
        .inspect fun w => k (.events (w.registry.tables.globalSet t))
  | .setEvents tool bits =>
      checking (checkTool tool) k fun t =>
        checking (checkBits bits) k fun events => operating (.setGlobal t events) k
  | .setEventsRaw tool bits =>
      checking (checkTool tool) k fun t => operating (.setGlobalBits t bits) k
  | .getLocal tool u =>
      checking (checkTool tool) k fun t =>
        locating setting u k fun u =>
          .inspect fun w => k (.events (w.registry.tables.localSet t u.id))
  | .setLocal tool u bits =>
      checking (checkTool tool) k fun t =>
        locating setting u k fun u =>
          checking (checkBits bits) k fun events => operating (.setLocal t u.id events) k
  | .allEvents => .inspect fun w => k (.table w.registry.allEvents)
  | .isArmed event =>
      checking (checkEvent event) k fun e => .inspect fun w => k (.flag (w.registry.isArmed e))
  | .restart => operating .restart k
  | .fire event u offset detail =>
      checking (checkEvent event) k fun e =>
        locating setting u k fun u =>
          reading (readDetail setting.codes (detail e.shape)) k fun detail =>
            .fire ⟨e, u, offset, detail⟩ fun
              | .ok () => k .done
              | .error fault => k (.raised fault)
  | .call callable args save =>
      reading (do
          let callable ← callable.read setting.codes
          return (callable, ← Literal.readItems setting.codes args)) k fun (callable, args) =>
        .call setting.maxDepth callable args fun
          | .error e => k (.raised e)
          | .ok v => .remember (·.define save v) (.inspect fun w => k (.value (tell w.heap v)))
  | .shown value =>
      reading (value.read setting.codes) k fun v => .inspect fun w => k (.value (tell w.heap v))
  | .equal a b =>
      reading (do
          let a ← a.read setting.codes
          return (a, ← b.read setting.codes)) k fun (a, b) =>
        .inspect fun w => k (.flag (w.heap.equal a b))

/-! ### Callbacks -/

def detailText (h : Heap) : Detail → String
  | .code none => ""
  | .code (some v) => " -> " ++ h.shown v
  | .call callable argument =>
      (if callable.isFunction then " py " else " c ") ++ h.shownCallable callable ++ " " ++
        h.shownArgument argument
  | .line n => " line " ++ toString n
  | .instruction => ""
  | .exception e => " " ++ h.shown e
  | .branch target => " -> " ++ toString target

/-- The line that a callback writes into the log. -/
def logLine (h : Heap) (name : String) (p : Payload) : String :=
  name ++ " " ++ p.unit.name ++ "@" ++ toString p.offset ++ ":" ++
    p.line?.elim "-" toString ++ detailText h p.detail

/-- The value that a report tells. -/
def valueOf : Detail → Option Value
  | .code value => value
  | .call _ argument => argument
  | .exception e => some e
  | _ => none

/-- The memory in which the value of a report has a name, if there is a value and a name. -/
def Memory.save (m : Memory) (name : Option String) (detail : Detail) : Memory :=
  match valueOf detail with
  | none => m
  | some v => m.define name v

/-- Carries out requests for a callback, each with an entry in the log. -/
def carryOut (setting : Setting) (name : String) (next : Play) : List Request → Play
  | [] => next
  | request :: rest =>
      request.script setting fun reply =>
        .inspect fun w =>
          let entry : Entry := .reply name reply w.registry.version
          .remember (·.write entry) (carryOut setting name next rest)

def Rule.script (setting : Setting) (name : String) (p : Payload) : Rule → Play
  | .mk _ save requests answer =>
      .remember (·.save save p.detail) (carryOut setting name (.answer answer) requests)

/-- **What a callback does.** -/
def behave (setting : Setting) (c : Callback) (p : Payload) : Play :=
  .remember (·.count c.id) (.inspect fun w =>
    match w.memory.made[c.id]? with
    | none => .done
    | some made =>
        let entry : Entry := .line (logLine w.heap made.name p)
        .remember (·.write entry)
          (match made.rules.find? fun rule => rule.guard.holds made.runs p with
          | none => .done
          | some rule => rule.script setting made.name p))

end Tracepoint.Scenario
