/-
**Strings of a TOML document.**

There are four kinds of strings. Those in double quotes know escapes, those in single quotes stand
for themselves; each kind has a form in three quotes, which may go over several lines. In that form
a line break right behind the opening quotes does not count, every other one is a line feed, and a
backslash at the end of a line hides the break with all blanks behind it.

* `basic?`, `literal?`: the forms on one line, which keys may have as well;
* `string?`: a string of any kind.
-/

import BookingAccess.Toml.Character

namespace BookingAccess.Toml

def hexDigit? (c : Char) : Option Nat :=
  if c.isDigit then some (c.toNat - '0'.toNat)
  else if 'a' ≤ c && c ≤ 'f' then some (c.toNat - 'a'.toNat + 10)
  else if 'A' ≤ c && c ≤ 'F' then some (c.toNat - 'A'.toNat + 10)
  else none

/-- The character with this number in base sixteen. Surrogates are no characters. -/
def charOfHex? (digits : List Char) : Option Char := do
  let code := (← digits.mapM hexDigit?).foldl (fun code digit => 16 * code + digit) 0
  if code.isValidChar then some (Char.ofNat code) else none

/-- The character that a backslash and this letter stand for. -/
def escape? : Char → Option Char
  | 'b' => some '\x08'
  | 't' => some '\t'
  | 'n' => some '\n'
  | 'f' => some '\x0c'
  | 'r' => some '\r'
  | '"' => some '"'
  | '\\' => some '\\'
  | _ => none

/-- One more character in front of what was read. -/
def prepend (c : Option Char) (read : Option (List Char × List Char)) : Option (List Char × List Char) := do
  let c ← c
  let (chars, rest) ← read
  return (c :: chars, rest)

/-- What stands up to the closing double quote. -/
def basic? : List Char → Option (List Char × List Char)
  | [] => none
  | '"' :: rest => some ([], rest)
  | '\\' :: 'u' :: a :: b :: c :: d :: rest => prepend (charOfHex? [a, b, c, d]) (basic? rest)
  | '\\' :: 'U' :: a :: b :: c :: d :: e :: f :: g :: h :: rest =>
    prepend (charOfHex? [a, b, c, d, e, f, g, h]) (basic? rest)
  | '\\' :: c :: rest => prepend (escape? c) (basic? rest)
  | c :: rest => if isPlain c && c != '\\' then prepend (some c) (basic? rest) else none

/-- What stands up to the closing single quote. -/
def literal? : List Char → Option (List Char × List Char)
  | [] => none
  | '\'' :: rest => some ([], rest)
  | c :: rest => if isPlain c then prepend (some c) (literal? rest) else none

/-- Is there nothing but spaces up to the end of the line? -/
def isLastOnLine (chars : List Char) : Bool := (lineBreak? (skipSpaces chars)).isSome

/-- What stands up to the closing three double quotes, before which up to two more quotes belong
to the string. A backslash at the end of a line makes the reader skip blanks. -/
def multilineBasic? (skipping : Bool) : List Char → Option (List Char × List Char)
  | [] => none
  | '"' :: '"' :: '"' :: '"' :: '"' :: rest => some (['"', '"'], rest)
  | '"' :: '"' :: '"' :: '"' :: rest => some (['"'], rest)
  | '"' :: '"' :: '"' :: rest => some ([], rest)
  | '\r' :: '\n' :: rest =>
    if skipping then multilineBasic? true rest
    else prepend (some '\n') (multilineBasic? false rest)
  | '\\' :: 'u' :: a :: b :: c :: d :: rest =>
    prepend (charOfHex? [a, b, c, d]) (multilineBasic? false rest)
  | '\\' :: 'U' :: a :: b :: c :: d :: e :: f :: g :: h :: rest =>
    prepend (charOfHex? [a, b, c, d, e, f, g, h]) (multilineBasic? false rest)
  | '\\' :: c :: rest =>
    if isLastOnLine (c :: rest) then multilineBasic? true rest
    else prepend (escape? c) (multilineBasic? false rest)
  | c :: rest =>
    if skipping && (isSpace c || c == '\n') then multilineBasic? true rest
    else if c == '\n' || (isPlain c && c != '\\') then
      prepend (some c) (multilineBasic? false rest)
    else none

/-- What stands up to the closing three single quotes. -/
def multilineLiteral? : List Char → Option (List Char × List Char)
  | [] => none
  | '\'' :: '\'' :: '\'' :: '\'' :: '\'' :: rest => some (['\'', '\''], rest)
  | '\'' :: '\'' :: '\'' :: '\'' :: rest => some (['\''], rest)
  | '\'' :: '\'' :: '\'' :: rest => some ([], rest)
  | '\r' :: '\n' :: rest => prepend (some '\n') (multilineLiteral? rest)
  | c :: rest =>
    if c == '\n' || isPlain c then prepend (some c) (multilineLiteral? rest) else none

/-- Without a line break at the start. -/
def skipLineBreak (chars : List Char) : List Char := (lineBreak? chars).getD chars

/-- The string that starts here, of whichever kind. -/
def string? : List Char → Option (String × List Char)
  | '"' :: '"' :: '"' :: rest => text (multilineBasic? false (skipLineBreak rest))
  | '"' :: rest => text (basic? rest)
  | '\'' :: '\'' :: '\'' :: rest => text (multilineLiteral? (skipLineBreak rest))
  | '\'' :: rest => text (literal? rest)
  | _ => none
where
  text (read : Option (List Char × List Char)) : Option (String × List Char) :=
    read.map fun (chars, rest) => (String.ofList chars, rest)

end BookingAccess.Toml
