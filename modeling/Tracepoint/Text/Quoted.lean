/-
**Quoted texts.**

A quoted text stands between double quotes.  The quote and the backslash are written behind a
backslash, the characters NUL, TAB, LF and CR by their letters, and every other character without
a visible shape by its code point in lower-case hexadecimal digits between braces.

Main definitions:

* `Tracepoint.Text.escape` — one character as it is written between the quotes;
* `Tracepoint.Text.quoted` — the quoted text.
-/

import Tracepoint.Text.Hidden

set_option relaxedAutoImplicit false
set_option autoImplicit false

namespace Tracepoint.Text

/-- The digits of a number in base sixteen, in lower case and without leading zeros. -/
def hex (n : Nat) : List Char :=
  Nat.toDigits 16 n

/-- One character as it is written between the quotes. -/
def escape (c : Char) : List Char :=
  if c = '\x00' then ['\\', '0']
  else if c = '\t' then ['\\', 't']
  else if c = '\n' then ['\\', 'n']
  else if c = '\r' then ['\\', 'r']
  else if c = '"' then ['\\', '"']
  else if c = '\\' then ['\\', '\\']
  else if isHidden c then ['\\', 'u', '\x7b'] ++ hex c.toNat ++ ['\x7d']
  else [c]

/-- The text between double quotes, with its characters escaped. -/
def quoted (s : String) : String :=
  String.ofList ('"' :: s.toList.flatMap escape ++ ['"'])

end Tracepoint.Text
