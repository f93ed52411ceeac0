/-
**Columns of a table.**

A cell is filled up with blanks to the width of its column.  A cell that is wider than its column
is left as it is.

Main definitions:

* `Tracepoint.Text.padRight` — blanks after the cell;
* `Tracepoint.Text.padLeft` — blanks before the cell.
-/

set_option relaxedAutoImplicit false
set_option autoImplicit false

namespace Tracepoint.Text

/-- The cell at the left of a column of the given width. -/
def padRight (width : Nat) (cell : String) : String :=
  cell ++ String.ofList (List.replicate (width - cell.length) ' ')

def padLeft (width : Nat) (cell : String) : String :=
  String.ofList (List.replicate (width - cell.length) ' ') ++ cell

theorem padRight_of_le {width : Nat} {cell : String} (h : width ≤ cell.length) :
    padRight width cell = cell := by
  simp [padRight, Nat.sub_eq_zero_of_le h]

end Tracepoint.Text
