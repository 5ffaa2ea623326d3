/-
**The characters of a TOML document.**

A document is made of lines; a line may end in a comment, and spaces and tabs may stand around
everything on it. Control characters other than the tab stand nowhere, not even in comments.

* `skipSpaces`, `skipGaps`: what may stand between two parts of a line, and between two items of a
  list, which may go over several lines;
* `endOfLine?`: the end of a line.

A reader takes the characters that are left and gives what it read with the characters behind it.
-/

namespace BookingAccess.Toml

/-- A space or a tab. -/
def isSpace (c : Char) : Bool := c == ' ' || c == '\t'

/-- May this character stand in a comment? -/
def isPlain (c : Char) : Bool := c == '\t' || (0x20 ≤ c.toNat && c.toNat != 0x7F)

/-- May this character stand in a key without quotes? -/
def isKeyChar (c : Char) : Bool := c.isAlphanum || c == '-' || c == '_'

def skipSpaces (chars : List Char) : List Char := chars.dropWhile isSpace

/-- The characters behind a line break. -/
def lineBreak? : List Char → Option (List Char)
  | '\n' :: rest => some rest
  | '\r' :: '\n' :: rest => some rest
  | _ => none

/-- Without a comment that starts here. -/
def skipComment : List Char → List Char
  | '#' :: rest => rest.dropWhile isPlain
  | chars => chars

/-- The characters behind the line, on which only spaces and a comment are left. -/
def endOfLine? (chars : List Char) : Option (List Char) :=
  match skipComment (skipSpaces chars) with
  | [] => some []
  | rest => lineBreak? rest

/-- Without the spaces, line breaks and comments at the start. Inside a comment everything goes up
to the end of the line. -/
def skipGaps (inComment : Bool) : List Char → List Char
  | [] => []
  | '\n' :: rest => skipGaps false rest
  | '\r' :: '\n' :: rest => skipGaps false rest
  | c :: rest =>
    if inComment && isPlain c then skipGaps true rest
    else if !inComment && isSpace c then skipGaps false rest
    else if !inComment && c == '#' then skipGaps true rest
    else c :: rest

end BookingAccess.Toml
