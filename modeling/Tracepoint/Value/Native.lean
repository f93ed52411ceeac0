/-
**Native functions.**

What the native functions do.  Each of them checks the number of its arguments first and their
types next.

Main definitions:

* `Tracepoint.Value.ofNat` — a count as an integer value;
* `Tracepoint.Heap.nominalSize` — the size of a value in bytes;
* `Tracepoint.Heap.runNative` — a native function on its arguments.
-/

import Tracepoint.Heap

set_option relaxedAutoImplicit false
set_option autoImplicit false

namespace Tracepoint

/-- A count as an integer value; a count beyond the integers is the largest of them. -/
def Value.ofNat (n : Nat) : Value :=
  if n < 0x8000000000000000 then .int (Int64.ofNat n) else .int Int64.maxValue

namespace Heap

/-- The nominal size of a value in bytes. -/
def nominalSize (h : Heap) : Value → Nat
  | .null => 16
  | .bool _ | .int _ => 28
  | .str s => 49 + s.utf8ByteSize
  | .tuple items => 40 + 8 * items.length
  | .list a => 56 + 8 * (h.items a).size
  | _ => 64

/-- The number of items or characters of a value. -/
def length (h : Heap) : Value → Except Exception Nat
  | .str s => .ok s.length
  | .tuple items => .ok items.length
  | .list a => .ok (h.items a).size
  | v => .error (.noLength v.typeName)

/-- A native function on its arguments: the heap after it, and its value or its exception. -/
def runNative (h : Heap) : Native → List Value → Heap × Except Exception Value
  | .len, [v] => (h, .ofNat <$> h.length v)
  | .len, args => (h, .error (.wrongArity "len" 1 args.length))
  | .sizeof, [v] => (h, .ok (.ofNat (h.nominalSize v)))
  | .sizeof, args => (h, .error (.wrongArity "sizeof" 1 args.length))
  | .append, [.list a, v] => (h.appendItem a v, .ok .null)
  | .append, [v, _] => (h, .error (.notAppendable v.typeName))
  | .append, args => (h, .error (.wrongArity "append" 2 args.length))
  | .range, [.int stop] => succeed (h.addIterator (.range 0 stop))
  | .range, [.int start, .int stop] => succeed (h.addIterator (.range start stop))
  | .range, [_] | .range, [_, _] => (h, .error .rangeBounds)
  | .range, args => (h, .error (.rangeArity args.length))

end Heap

end Tracepoint
