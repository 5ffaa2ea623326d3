/-
**The grammar of expressions.**

```
expression := start chain(or)? finish
chain(or)  := chain(and) (or chain(and))*
chain(and) := negation (and negation)*
negation   := not* comparison
comparison := primary (relation primary)?
primary    := literal | call | identifier | "(" chain(or) ")"
call       := identifier "(" (chain(or) ("," chain(or))*)? ")"
```

Spaces, tabs and line breaks may stand between the parts of these rules, and nowhere inside the
tokens below them. The grammar accepts calls of any function with any arguments, and integers of
any size; both are checked only once the whole text has been taken.

* `Expression.grammar` is the grammar, and `Expression.parse?` takes a whole text.
-/

import BookingAccess.Text.Peg

namespace BookingAccess.Expression

/-- An operator whose operands make a flat chain. -/
inductive Connective
  | or
  | and
deriving DecidableEq

inductive Rule
  | expression
  | chain (connective : Connective)
  | negation
  | comparison
  | call
  | text
  | integer
  | boolean
  | null
  | identifier
  | connective (connective : Connective)
  | not
  | relation
deriving DecidableEq

/-- The rule of the operands of a chain. -/
def Connective.operand : Connective → Rule
  | .or => .chain .and
  | .and => .negation

/-- The name of a rule in faults. -/
def Rule.name : Rule → String
  | .expression => "expression"
  | .chain .or => "or_expr"
  | .chain .and => "and_expr"
  | .negation => "not_expr"
  | .comparison => "comparison"
  | .call => "call"
  | .text => "string"
  | .integer => "integer"
  | .boolean => "boolean"
  | .null => "null_lit"
  | .identifier => "identifier"
  | .connective .or => "or_op"
  | .connective .and => "and_op"
  | .not => "not_op"
  | .relation => "compare_op"

def isGap (c : Char) : Bool := c == ' ' || c == '\t' || c == '\r' || c == '\n'

def startsName (c : Char) : Bool := c.isAlpha || c == '_'

def continuesName (c : Char) : Bool := c.isAlphanum || c == '_'

/-! ### Tokens -/

section Tokens

open Peg

/-- A word of the list, with nothing behind it that would make it a longer word. -/
def word (spellings : List String) : Peg Empty := texts spellings ++ absent (one continuesName)

/-- The words that are no names. -/
def reserved : List String := ["and", "or", "not", "in", "true", "false", "null"]

/-- A text between two quotes, which has no such quote in it. -/
def quoted (quote : String) : Peg Empty :=
  text quote ++ many (absent (text quote) ++ one fun _ => true) ++ text quote

def connectiveToken : Connective → Peg Empty
  | .or => text "||" <|> word ["or"]
  | .and => text "&&" <|> word ["and"]

end Tokens

/-! ### Phrases -/

section Phrases

open Peg

def anyLiteral : Peg Rule := call .text <|> call .integer <|> call .boolean <|> call .null

def anyPrimary : Peg Rule :=
  anyLiteral <|> call .call <|> call .identifier <|> text "(" ++ call (.chain .or) ++ text ")"

def someArguments : Peg Rule := call (.chain .or) ++ many (text "," ++ call (.chain .or))

end Phrases

open Peg in
def bodyOf : Rule → Body Rule
  -- The rule is taken at the start of a text only, where the start is no further condition.
  | .expression => .phrase (nothing ++ maybe (call (.chain .or)) ++ finish)
  | .chain connective =>
    .phrase (call connective.operand ++
      many (call (.connective connective) ++ call connective.operand))
  | .negation => .phrase (many (call .not) ++ call .comparison)
  | .comparison => .phrase (anyPrimary ++ maybe (call .relation ++ anyPrimary))
  | .call => .phrase (call .identifier ++ text "(" ++ maybe someArguments ++ text ")")
  | .text => .token (quoted "\"" <|> quoted "'")
  | .integer => .token (maybe (text "-") ++ several (one Char.isDigit))
  | .boolean => .token (word ["true", "false"])
  | .null => .token (word ["null"])
  | .identifier => .token (absent (word reserved) ++ one startsName ++ many (one continuesName))
  | .connective connective => .token (connectiveToken connective)
  | .not => .token (text "!" ++ absent (text "=") <|> word ["not"])
  | .relation => .token (texts ["==", "!=", "<=", ">=", "<", ">"] <|> word ["in"])

def grammar : Grammar Rule := ⟨bodyOf, isGap⟩

/-- Enough depth for a text of so many characters: a rule calls at most four rules before a bracket
is taken. -/
def depthFor (chars : List Char) : Nat := 4 * chars.length + 6

/-- The tree of a whole text. -/
def parse? (chars : List Char) : Option (ParseTree Rule) :=
  match grammar.parse (depthFor chars) .expression chars with
  | some ([tree], _) => some tree
  | _ => none

end BookingAccess.Expression
