/-
**Blanks around a text.**

A blank is a character with the Unicode property White_Space.  Names and lists are read without
the blanks that stand before and after them.

Main definitions:

* `Tracepoint.Text.isBlank` — the property White_Space;
* `Tracepoint.Text.trim` — a text without its outer blanks, `Tracepoint.Text.trimEnd` without the
  trailing ones only.
-/

set_option relaxedAutoImplicit false
set_option autoImplicit false

namespace Tracepoint.Text

/-- The characters with the Unicode property White_Space. -/
def isBlank (c : Char) : Bool :=
  let n := c.toNat
  (0x9 ≤ n && n ≤ 0xD) || n == 0x20 || n == 0x85 || n == 0xA0 || n == 0x1680 ||
    (0x2000 ≤ n && n ≤ 0x200A) || n == 0x2028 || n == 0x2029 || n == 0x202F || n == 0x205F ||
    n == 0x3000

/-- The characters up to the last one that is not a blank. -/
def dropBlankEnd (cs : List Char) : List Char :=
  (cs.reverse.dropWhile isBlank).reverse

/-- The characters from the first to the last one that is not a blank. -/
def trimChars (cs : List Char) : List Char :=
  dropBlankEnd (cs.dropWhile isBlank)

def trim (s : String) : String :=
  String.ofList (trimChars s.toList)

def trimEnd (s : String) : String :=
  String.ofList (dropBlankEnd s.toList)

@[simp] theorem dropBlankEnd_nil : dropBlankEnd [] = [] := rfl

@[simp] theorem trimChars_nil : trimChars [] = [] := rfl

/-- The plain blanks of a source text are blanks. -/
theorem isBlank_of_isWhitespace {c : Char} (h : c.isWhitespace) : isBlank c := by
  simp only [Char.isWhitespace, Bool.or_eq_true, decide_eq_true_eq] at h
  rcases h with ((rfl | rfl) | rfl) | rfl <;> rfl

end Tracepoint.Text
