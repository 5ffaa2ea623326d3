/-
**Parsing expressions.**

A parsing expression takes a beginning of a text or fails. Of two alternatives the second one is
tried only where the first one fails, and what has been taken is not given back: a repetition takes
as much as it can.

A grammar gives a body to each of its rules. The body of a token is taken without gaps; in the body
of a phrase, gaps may stand between any two parts. Tokens call no rules, so only phrases recur.

* `Peg.run` takes an expression at the start of a text;
* `Grammar.parse` takes a rule, and gives the tree of the rules that were called.
-/

namespace BookingAccess

/-- A parsing expression over the rules it may call. -/
inductive Peg (Rule : Type)
  /-- Takes nothing. -/
  | nothing
  | text (word : String)
  /-- One character of a class. -/
  | one (accepts : Char → Bool)
  | call (rule : Rule)
  | sequence (first second : Peg Rule)
  | choice (first second : Peg Rule)
  | maybe (inner : Peg Rule)
  | many (inner : Peg Rule)
  /-- Takes nothing, where the inner expression fails. -/
  | absent (inner : Peg Rule)
  /-- The end of the text. -/
  | finish

namespace Peg

variable {Rule : Type}

instance : Append (Peg Rule) := ⟨sequence⟩

instance : OrElse (Peg Rule) := ⟨fun first second => choice first (second ())⟩

/-- The first one of the texts that fits. -/
def texts : List String → Peg Rule
  | [] => absent nothing
  | [word] => text word
  | word :: more => text word <|> texts more

/-- The same thing once or more often. -/
def several (inner : Peg Rule) : Peg Rule := inner ++ many inner

end Peg

/-- What a rule took: the text, and the trees of the rules that it called. -/
inductive ParseTree (Rule : Type)
  | node (rule : Rule) (text : List Char) (inner : List (ParseTree Rule))

namespace ParseTree

variable {Rule : Type}

def rule : ParseTree Rule → Rule
  | .node rule _ _ => rule

def text : ParseTree Rule → List Char
  | .node _ text _ => text

def inner : ParseTree Rule → List (ParseTree Rule)
  | .node _ _ inner => inner

end ParseTree

/-- Takes a beginning of a text: the trees of what is called there, and the text behind it. -/
abbrev Parser (Rule : Type) := List Char → Option (List (ParseTree Rule) × List Char)

namespace Peg

variable {Rule : Type}

/-- Takes the same thing again until it fails, at most so many times. -/
def again (step : Parser Rule) : Nat → List Char → List (ParseTree Rule) × List Char
  | 0, chars => ([], chars)
  | rounds + 1, chars =>
    match step chars with
    | none => ([], chars)
    | some (trees, rest) =>
      let (more, rest) := again step rounds rest
      (trees ++ more, rest)

/-- Takes the expression at the start of a text. `call` is what a rule takes, and `skip` drops the
gap between two parts. What is repeated takes at least one character each time, so there are no
more rounds than characters. -/
def run (call : Rule → Parser Rule) (skip : List Char → List Char) : Peg Rule → Parser Rule
  | .nothing, chars => some ([], chars)
  | .text word, chars => (word.toList.isPrefixOf? chars).map fun rest => ([], rest)
  | .one accepts, chars =>
    match chars with
    | [] => none
    | c :: rest => if accepts c then some ([], rest) else none
  | .call rule, chars => call rule chars
  | .sequence first second, chars => do
    let (trees, rest) ← first.run call skip chars
    let (more, rest) ← second.run call skip (skip rest)
    return (trees ++ more, rest)
  | .choice first second, chars => first.run call skip chars <|> second.run call skip chars
  | .maybe inner, chars => inner.run call skip chars <|> some ([], chars)
  | .many inner, chars =>
    match inner.run call skip chars with
    | none => some ([], chars)
    | some (trees, rest) =>
      let (more, rest) := again (fun chars => inner.run call skip (skip chars)) chars.length rest
      some (trees ++ more, rest)
  | .absent inner, chars =>
    match inner.run call skip chars with
    | none => some ([], chars)
    | some _ => none
  | .finish, chars => if chars.isEmpty then some ([], chars) else none

/-- Takes a token, and gives the text behind it. -/
def lex (pattern : Peg Empty) (chars : List Char) : Option (List Char) :=
  (pattern.run Empty.elim id chars).map Prod.snd

end Peg

/-- The body of a rule. -/
inductive Body (Rule : Type)
  | token (pattern : Peg Empty)
  | phrase (pattern : Peg Rule)

/-- A grammar: the bodies of the rules, and the characters of gaps. -/
structure Grammar (Rule : Type) where
  body : Rule → Body Rule
  isGap : Char → Bool

namespace Grammar

variable {Rule : Type}

/-- The text behind a gap. -/
def skip (grammar : Grammar Rule) (chars : List Char) : List Char := chars.dropWhile grammar.isGap

/-- Takes a rule at the start of a text, where no rule is called at more than the given depth. -/
def parse (grammar : Grammar Rule) : Nat → Rule → Parser Rule
  | 0, _, _ => none
  | depth + 1, rule, chars => do
    let (inner, rest) ←
      match grammar.body rule with
      | .token pattern => (pattern.lex chars).map fun rest => ([], rest)
      | .phrase pattern => pattern.run (grammar.parse depth) grammar.skip chars
    return ([.node rule (chars.take (chars.length - rest.length)) inner], rest)

end Grammar

end BookingAccess
