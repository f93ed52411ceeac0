/-
**Texts up to the case of ASCII letters.**

Names of events and tools are recognised whatever the case of their letters.  Only the letters
from `A` to `Z` have two cases here; every other character stands for itself alone.

Main definitions:

* `Tracepoint.Text.lower` — a text with its ASCII letters in lower case;
* `Tracepoint.Text.sameIgnoringCase` — equality up to that.
-/

set_option relaxedAutoImplicit false
set_option autoImplicit false

namespace Tracepoint.Text

/-- The text with the letters from `A` to `Z` in lower case. -/
def lower (s : String) : String :=
  String.ofList (s.toList.map Char.toLower)

/-- Whether two texts differ at most in the case of ASCII letters. -/
def sameIgnoringCase (s t : String) : Bool :=
  s.toList.map Char.toLower == t.toList.map Char.toLower

/-- Two texts are the same up to case exactly when their lower-case forms are equal. -/
theorem sameIgnoringCase_iff {s t : String} : sameIgnoringCase s t ↔ lower s = lower t := by
  simp [sameIgnoringCase, lower, String.ofList_inj]

end Tracepoint.Text
