/-
**Values of a TOML document.**

A value is a string, a number, a truth value, a moment, a list or an inline table. Lists may go
over several lines, inline tables may not. Lists and inline tables are nested less than eighty
deep, and a key has fewer than eighty parts.

* `key?`: a key, which may be dotted;
* `value?`: a value.
-/

import BookingAccess.Toml.Moment
import BookingAccess.Toml.Number
import BookingAccess.Toml.Tree

namespace BookingAccess.Toml

/-- How deep values may be nested, and how many parts a key may have. -/
def depthLimit : Nat := 79

/-! ### Keys -/

def simpleKey? : List Char → Option (String × List Char)
  | '"' :: rest => (basic? rest).map fun (chars, rest) => (String.ofList chars, rest)
  | '\'' :: rest => (literal? rest).map fun (chars, rest) => (String.ofList chars, rest)
  | chars =>
    match chars.takeWhile isKeyChar with
    | [] => none
    | key => some (String.ofList key, chars.dropWhile isKeyChar)

/-- The parts of a key, no more than a number of them, with dots and spaces between them. -/
def keyParts? : Nat → List Char → Option (List String × List Char)
  | 0, _ => none
  | parts + 1, chars => do
    let (first, rest) ← simpleKey? (skipSpaces chars)
    match skipSpaces rest with
    | '.' :: rest =>
      let (others, rest) ← keyParts? parts rest
      return (first :: others, rest)
    | rest => return ([first], rest)

def key? (chars : List Char) : Option (List String × List Char) := keyParts? depthLimit chars

/-! ### Values without parts -/

/-- May this character stand in a value without quotes? -/
def isWordChar (c : Char) : Bool :=
  c.isAlphanum || c == '+' || c == '-' || c == '_' || c == '.' || c == ':'

/-- The field under which a moment is kept: it is a record of its normal form. -/
def momentField : String := "$__toml_private_datetime"

def ofMoment (text : List Char) : Data := .record [(momentField, .text (String.ofList text))]

/-- The value that a word stands for. -/
def ofWord? (word : List Char) : Option Data :=
  if word == ['t', 'r', 'u', 'e'] then some (.boolean true)
  else if word == ['f', 'a', 'l', 's', 'e'] then some (.boolean false)
  else if let some text := moment? word then some (ofMoment text)
  else if isReal word then some .real
  else (integer? word).map .integer

/-- The value that a word stands for; a date and a time may be one value in two words. -/
def word? (chars : List Char) : Option (Data × List Char) :=
  let word := chars.takeWhile isWordChar
  let rest := chars.dropWhile isWordChar
  let joined := match rest with
    | ' ' :: more => (moment? (word ++ ' ' :: more.takeWhile isWordChar)).map fun text =>
        (ofMoment text, more.dropWhile isWordChar)
    | _ => none
  joined <|> (ofWord? word).map (·, rest)

/-! ### Lists and inline tables -/

/-- The items of a list behind the opening bracket. A comma may stand behind the last one. -/
def items? (value : List Char → Option (Data × List Char)) : Nat → List Char → Option (List Data × List Char)
  | 0, _ => none
  | rounds + 1, chars =>
    match skipGaps false chars with
    | ']' :: rest => some ([], rest)
    | chars => do
      let (item, rest) ← value chars
      match skipGaps false rest with
      | ',' :: rest =>
        let (others, rest) ← items? value rounds rest
        return (item :: others, rest)
      | ']' :: rest => return ([item], rest)
      | _ => none

/-- A key, an equals sign and a value. -/
def assignment? (value : List Char → Option (Data × List Char)) (chars : List Char) :
    Option ((List String × Data) × List Char) := do
  let (key, rest) ← key? chars
  match rest with
  | '=' :: rest =>
    let (assigned, rest) ← value (skipSpaces rest)
    return ((key, assigned), rest)
  | _ => none

/-- The assignments of an inline table, of which there is at least one. -/
def assignments? (value : List Char → Option (Data × List Char)) :
    Nat → List Char → Option (List (List String × Data) × List Char)
  | 0, _ => none
  | rounds + 1, chars => do
    let (first, rest) ← assignment? value chars
    match skipSpaces rest with
    | ',' :: rest =>
      let (others, rest) ← assignments? value rounds rest
      return (first :: others, rest)
    | '}' :: rest => return ([first], rest)
    | _ => none

/-- An inline table behind the opening brace. -/
def inlineTable? (value : List Char → Option (Data × List Char)) (chars : List Char) : Option (Data × List Char) :=
  match skipSpaces chars with
  | '}' :: rest => some (.record [], rest)
  | chars => do
    let (assignments, rest) ← assignments? value chars.length chars
    let tree ← Tree.assignAll? [] assignments
    return (tree.toData, rest)

/-- A value that is nested no deeper than this. Each item of a list and of a table takes at least
one character, so there are no more of them than characters. -/
def valueWithin? : Nat → List Char → Option (Data × List Char)
  | 0, chars => string chars <|> word? chars
  | depth + 1, chars =>
    match chars with
    | '[' :: rest =>
      (items? (valueWithin? depth) (rest.length + 1) rest).map fun (items, rest) =>
        (.list items, rest)
    | '{' :: rest => inlineTable? (valueWithin? depth) rest
    | chars => string chars <|> word? chars
where
  string (chars : List Char) : Option (Data × List Char) :=
    (string? chars).map fun (text, rest) => (.text text, rest)

def value? (chars : List Char) : Option (Data × List Char) := valueWithin? depthLimit chars

end BookingAccess.Toml
