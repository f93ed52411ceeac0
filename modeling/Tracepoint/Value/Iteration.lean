/-
**Iterating over values.**

A loop over a list, a tuple or a text goes over the items or characters that it has when the loop
begins; what is done to the list afterwards does not matter.  Iterators and generators are
iterated over as they are.

Main definitions:

* `Tracepoint.Heap.snapshot?` — the items of a value;
* `Tracepoint.Heap.iterate` — the iterator over a value.
-/

import Tracepoint.Heap

set_option relaxedAutoImplicit false
set_option autoImplicit false

namespace Tracepoint

namespace Heap

/-- The items or characters of a value, in order. -/
def snapshot? (h : Heap) : Value → Option (List Value)
  | .list a => some (h.items a).toList
  | .tuple items => some items
  | .str s => some (s.toList.map fun c => .str (String.singleton c))
  | _ => none

/-- The iterator over a value, if there is one, and the heap after it was made. -/
def iterate (h : Heap) (v : Value) : Heap × Except Exception Value :=
  match v with
  | .iterator _ | .generator _ => (h, .ok v)
  | v =>
      match h.snapshot? v with
      | some items => succeed (h.addIterator (.items items))
      | none => (h, .error (.notIterable v.typeName))

end Heap

end Tracepoint
