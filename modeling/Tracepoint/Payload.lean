/-
**Payloads: what is told about an occurrence.**

An occurrence is reported with the code unit and the offset where it happens and a detail that
depends on its kind.

Main definitions:

* `Tracepoint.Detail`, `Tracepoint.Payload` — what is told;
* `Tracepoint.Payload.shape` — the shape of what is told;
* `Tracepoint.Occurrence` — an event with its payload.
-/

import Tracepoint.Event
import Tracepoint.Code.Identity

set_option relaxedAutoImplicit false
set_option autoImplicit false

namespace Tracepoint

/-- What is told about an occurrence beyond where it happens. -/
inductive Detail where
  | code (value : Option Value)
  /-- What is called, and its first argument, if there is one. -/
  | call (callable : Value) (argument : Option Value)
  | line (n : Nat)
  | instruction
  | exception (e : Value)
  /-- The offset where control goes. -/
  | branch (target : Nat)
  deriving Inhabited

def Detail.shape : Detail → Shape
  | code _ => .code
  | call _ _ => .call
  | line _ => .line
  | instruction => .instruction
  | exception _ => .exception
  | branch _ => .branch

/-- What is told about an occurrence. -/
structure Payload where
  unit : CodeUnit
  offset : Nat
  detail : Detail
  deriving Inhabited

namespace Payload

def shape (p : Payload) : Shape := p.detail.shape

def code (p : Payload) : CodeId := p.unit.id

def line? (p : Payload) : Option Nat := p.unit.lineAt? p.offset

end Payload

/-- An event with its payload. -/
structure Occurrence where
  event : Event
  payload : Payload
  deriving Inhabited

end Tracepoint
