/-
**Texts in quotes.**

A text is shown between double quotes, in which a quote and a backslash stand behind a backslash.
Tabs, line breaks and the zero character are shown by a letter behind a backslash, and every other
character that does not show as itself by its number in base sixteen.

* `quote`: the text in quotes.
-/

import BookingAccess.Text.Visible

namespace BookingAccess.Text

/-- The number of a character in base sixteen, between braces. -/
def numberEscape (c : Char) : List Char :=
  '\\' :: 'u' :: '{' :: Nat.toDigits 16 c.toNat ++ ['}']

def quoteChar (c : Char) : List Char :=
  match c with
  | '\x00' => ['\\', '0']
  | '\t' => ['\\', 't']
  | '\r' => ['\\', 'r']
  | '\n' => ['\\', 'n']
  | '\\' => ['\\', '\\']
  | '"' => ['\\', '"']
  | c => if isVisible c then [c] else numberEscape c

def quote (text : String) : String :=
  String.ofList ('"' :: text.toList.flatMap quoteChar ++ ['"'])

end BookingAccess.Text
