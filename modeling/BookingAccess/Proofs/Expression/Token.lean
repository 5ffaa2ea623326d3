/-
**Tokens of an expression.**

A token is a text in quotes, an integer, a word or a symbol. A source is split from left to right,
each time at the longest token that starts there; gaps may stand between the tokens.

* `Splits` says which tokens a source consists of;
* `Token.lead?` finds the longest token at the start of a text (`lead?_eq_some_iff`), so a source
  has at most one split (`Splits.unique`).
-/

import Mathlib.Data.List.DropRight
import Mathlib.Data.List.TakeWhile
import BookingAccess.Expression.Basic
import BookingAccess.Expression.Grammar

namespace BookingAccess.Expression

inductive Token
  | text (value : String)
  | integer (negative : Bool) (digits : List Char)
  | boolean (value : Bool)
  | null
  | name (word : String)
  | connective (connective : Connective)
  | not
  | comparison (relation : Comparison)
  | opening
  | closing
  | comma
deriving DecidableEq

namespace Token

/-- A word is reserved or else a name. -/
def ofWord (word : List Char) : Token :=
  match String.ofList word with
  | "and" => .connective .and
  | "or" => .connective .or
  | "not" => .not
  | "in" => .comparison .member
  | "true" => .boolean true
  | "false" => .boolean false
  | "null" => .null
  | other => .name other

/-- The symbols and the tokens that they are. -/
def symbols : List (List Char × Token) :=
  [(['|', '|'], .connective .or), (['&', '&'], .connective .and), (['!'], .not),
    (['=', '='], .comparison .equal), (['!', '='], .comparison .different),
    (['<', '='], .comparison .lessOrEqual), (['>', '='], .comparison .greaterOrEqual),
    (['<'], .comparison .less), (['>'], .comparison .greater),
    (['('], .opening), ([')'], .closing), ([','], .comma)]

/-- The spellings of a token. -/
inductive Spells : Token → List Char → Prop
  | text {quote : Char} {value : List Char} (isQuote : quote = '"' ∨ quote = '\'')
      (inside : ∀ c ∈ value, c ≠ quote) :
      Spells (.text (String.ofList value)) (quote :: (value ++ [quote]))
  | positive {digits : List Char} (some : digits ≠ []) (all : ∀ c ∈ digits, c.isDigit = true) :
      Spells (.integer false digits) digits
  | negative {digits : List Char} (some : digits ≠ []) (all : ∀ c ∈ digits, c.isDigit = true) :
      Spells (.integer true digits) ('-' :: digits)
  | word {first : Char} {others : List Char} (starts : startsName first = true)
      (continues : ∀ c ∈ others, continuesName c = true) :
      Spells (ofWord (first :: others)) (first :: others)
  | symbol {token : Token} {lexeme : List Char} (listed : (lexeme, token) ∈ symbols) :
      Spells token lexeme

/-- The token is the longest one at the start of the text, and leaves the rest. -/
def Leads (chars : List Char) (token : Token) (rest : List Char) : Prop :=
  ∃ lexeme, Spells token lexeme ∧ chars = lexeme ++ rest ∧
    ∀ other longer behind, Spells other longer → chars = longer ++ behind →
      longer.length ≤ lexeme.length

/-! ### Finding the longest token -/

/-- The symbol at the start of the text, the longer one where two fit. -/
def symbol? : List Char → Option (Token × List Char)
  | '|' :: '|' :: rest => some (.connective .or, rest)
  | '&' :: '&' :: rest => some (.connective .and, rest)
  | '=' :: '=' :: rest => some (.comparison .equal, rest)
  | '!' :: '=' :: rest => some (.comparison .different, rest)
  | '<' :: '=' :: rest => some (.comparison .lessOrEqual, rest)
  | '>' :: '=' :: rest => some (.comparison .greaterOrEqual, rest)
  | '!' :: rest => some (.not, rest)
  | '<' :: rest => some (.comparison .less, rest)
  | '>' :: rest => some (.comparison .greater, rest)
  | '(' :: rest => some (.opening, rest)
  | ')' :: rest => some (.closing, rest)
  | ',' :: rest => some (.comma, rest)
  | _ => none

/-- The text behind an opening quote, which ends at the next quote of the same kind. -/
def quoted? (quote : Char) (chars : List Char) : Option (Token × List Char) :=
  match chars.dropWhile (· != quote) with
  | [] => none
  | _ :: rest => some (.text (String.ofList (chars.takeWhile (· != quote))), rest)

/-- The integer whose digits start here. -/
def digits? (negative : Bool) (chars : List Char) : Option (Token × List Char) :=
  if chars.takeWhile Char.isDigit = [] then none
  else some (.integer negative (chars.takeWhile Char.isDigit), chars.dropWhile Char.isDigit)

/-- The longest token at the start of the text, and the text behind it. -/
def lead? : List Char → Option (Token × List Char)
  | [] => none
  | c :: rest =>
    if c = '"' ∨ c = '\'' then quoted? c rest
    else if c = '-' then digits? true rest
    else if c.isDigit then digits? false (c :: rest)
    else if startsName c then
      some (ofWord (c :: rest.takeWhile continuesName), rest.dropWhile continuesName)
    else symbol? (c :: rest)

/-- What one class of characters takes is all that stands before the first other character. -/
theorem span_append {accepts : Char → Bool} {front : List Char}
    (all : ∀ c ∈ front, accepts c = true) (rest : List Char) :
    (front ++ rest).takeWhile accepts = front ++ rest.takeWhile accepts ∧
      (front ++ rest).dropWhile accepts = rest.dropWhile accepts :=
  ⟨List.takeWhile_append_of_pos all, List.dropWhile_append_of_pos all⟩

theorem quoted?_append {quote : Char} {value : List Char} (inside : ∀ c ∈ value, c ≠ quote)
    (rest : List Char) :
    quoted? quote (value ++ quote :: rest) = some (.text (String.ofList value), rest) := by
  have other : ∀ c ∈ value, (c != quote) = true := by simpa using inside
  obtain ⟨taken, dropped⟩ := span_append other (quote :: rest)
  simp [quoted?, taken, dropped]

theorem quoted?_eq_some {quote : Char} {chars rest : List Char} {token : Token}
    (found : quoted? quote chars = some (token, rest)) :
    ∃ value, (∀ c ∈ value, c ≠ quote) ∧ chars = value ++ quote :: rest ∧
      token = .text (String.ofList value) := by
  have whole := List.takeWhile_append_dropWhile (p := (· != quote)) (l := chars)
  have first := List.head?_dropWhile_not (· != quote) chars
  have inside : ∀ c ∈ chars.takeWhile (· != quote), c ≠ quote := fun c member => by
    simpa using List.mem_takeWhile_imp member
  unfold quoted? at found
  split at found
  · exact absurd found (by simp)
  · rename_i c behind dropped
    simp only [Option.some.injEq, Prod.mk.injEq] at found
    obtain ⟨rfl, rfl⟩ := found
    have isQuote : c = quote := by simpa [dropped] using first
    subst isQuote
    exact ⟨_, inside, by rw [← dropped, whole], rfl⟩

theorem symbol?_listed {chars rest : List Char} {token : Token}
    (found : symbol? chars = some (token, rest)) :
    ∃ lexeme, (lexeme, token) ∈ symbols ∧ chars = lexeme ++ rest := by
  unfold symbol? at found
  split at found <;> simp only [Option.some.injEq, Prod.mk.injEq, reduceCtorEq] at found
  all_goals
    obtain ⟨rfl, rfl⟩ := found
    simp [symbols]

/-- What is found is spelled at the start of the text. -/
theorem spells_of_lead? {chars rest : List Char} {token : Token}
    (found : lead? chars = some (token, rest)) :
    ∃ lexeme, Spells token lexeme ∧ chars = lexeme ++ rest := by
  cases chars with
  | nil => simp [lead?] at found
  | cons c others =>
    simp only [lead?] at found
    split at found
    · rename_i isQuote
      obtain ⟨value, inside, rfl, rfl⟩ := quoted?_eq_some found
      exact ⟨_, .text isQuote inside, by simp⟩
    split at found
    · rename_i isMinus
      subst isMinus
      simp only [digits?, Option.ite_none_left_eq_some, Option.some.injEq, Prod.mk.injEq] at found
      obtain ⟨some, rfl, rfl⟩ := found
      exact ⟨_, .negative some fun _ => List.mem_takeWhile_imp, by simp⟩
    split at found
    · simp only [digits?, Option.ite_none_left_eq_some, Option.some.injEq, Prod.mk.injEq] at found
      obtain ⟨some, rfl, rfl⟩ := found
      exact ⟨_, .positive some fun _ => List.mem_takeWhile_imp, by simp⟩
    split at found
    · rename_i starts
      simp only [Option.some.injEq, Prod.mk.injEq] at found
      obtain ⟨rfl, rfl⟩ := found
      exact ⟨_, .word starts fun _ => List.mem_takeWhile_imp, by simp⟩
    · obtain ⟨lexeme, listed, same⟩ := symbol?_listed found
      exact ⟨lexeme, .symbol listed, same⟩

/-- The tokens of a digit and of a letter are told apart by their first characters. -/
theorem not_digit_of_startsName {c : Char} (starts : startsName c = true) :
    c ≠ '"' ∧ c ≠ '\'' ∧ c ≠ '-' ∧ c.isDigit = false := by
  refine ⟨?_, ?_, ?_, ?_⟩
  · rintro rfl; exact absurd starts (by decide)
  · rintro rfl; exact absurd starts (by decide)
  · rintro rfl; exact absurd starts (by decide)
  · rw [Bool.eq_false_iff]
    intro digit
    unfold startsName Char.isAlpha Char.isUpper Char.isLower at starts
    simp only [Bool.or_eq_true, Bool.and_eq_true, decide_eq_true_eq, beq_iff_eq, ge_iff_le,
      UInt32.le_iff_toNat_le] at starts
    simp only [Char.isDigit, Bool.and_eq_true, decide_eq_true_eq, ge_iff_le,
      UInt32.le_iff_toNat_le] at digit
    rcases starts with (starts | starts) | rfl
    · simp at starts digit; omega
    · simp at starts digit; omega
    · exact absurd digit (by decide)

theorem ne_of_isDigit {c : Char} (digit : c.isDigit = true) : c ≠ '"' ∧ c ≠ '\'' ∧ c ≠ '-' := by
  refine ⟨?_, ?_, ?_⟩ <;> rintro rfl <;> exact absurd digit (by decide)

theorem lead?_digits {digits : List Char} (some : digits ≠ [])
    (all : ∀ c ∈ digits, c.isDigit = true) (rest : List Char) :
    lead? (digits ++ rest) = digits? false (digits ++ rest) := by
  cases digits with
  | nil => exact absurd rfl some
  | cons c digits =>
    have digit := all c (by simp)
    simp [lead?, ne_of_isDigit digit, digit]

theorem digits?_append (negative : Bool) {digits : List Char} (some : digits ≠ [])
    (all : ∀ c ∈ digits, c.isDigit = true) (rest : List Char) :
    digits? negative (digits ++ rest) =
      .some (.integer negative (digits ++ rest.takeWhile Char.isDigit),
        rest.dropWhile Char.isDigit) := by
  obtain ⟨taken, dropped⟩ := span_append all rest
  simp [digits?, taken, dropped, some]

/-- What goes on with a class of characters takes nothing more, or leaves less. -/
theorem span_shorter (accepts : Char → Bool) (front rest : List Char) :
    (front ++ rest.takeWhile accepts = front ∧ rest.dropWhile accepts = rest) ∨
      (rest.dropWhile accepts).length < rest.length := by
  cases rest with
  | nil => simp
  | cons c rest =>
    by_cases accepted : accepts c
    · right
      simpa [accepted, Nat.lt_succ_iff] using List.length_dropWhile_le accepts rest
    · left
      simp [accepted]

/-- A symbol is found, unless the equals sign behind it makes it a longer one. -/
theorem lead?_symbol {lexeme : List Char} {token : Token} (listed : (lexeme, token) ∈ symbols)
    (rest : List Char) :
    lead? (lexeme ++ rest) = some (token, rest) ∨
      ∃ found behind, rest = '=' :: behind ∧ lead? (lexeme ++ rest) = some (found, behind) := by
  simp only [symbols, List.mem_cons, Prod.mk.injEq, List.not_mem_nil, or_false] at listed
  rcases listed with ⟨rfl, rfl⟩ | ⟨rfl, rfl⟩ | ⟨rfl, rfl⟩ | ⟨rfl, rfl⟩ | ⟨rfl, rfl⟩ | ⟨rfl, rfl⟩ |
    ⟨rfl, rfl⟩ | ⟨rfl, rfl⟩ | ⟨rfl, rfl⟩ | ⟨rfl, rfl⟩ | ⟨rfl, rfl⟩ | ⟨rfl, rfl⟩
  all_goals
    rcases rest with _ | ⟨d, rest⟩
    · simp [lead?, startsName, symbol?]
    · by_cases isEqual : d = '='
      · simp [lead?, startsName, symbol?, isEqual]
      · simp [lead?, startsName, symbol?, isEqual]

/-- What is spelled at the start of a text is found, unless a longer token is. -/
theorem lead?_append {token : Token} {lexeme : List Char} (spells : Spells token lexeme)
    (rest : List Char) :
    ∃ found behind, lead? (lexeme ++ rest) = some (found, behind) ∧
      (found = token ∧ behind = rest ∨ behind.length < rest.length) := by
  cases spells with
  | text isQuote inside =>
    exact ⟨_, rest, by simpa [lead?, isQuote] using quoted?_append inside rest, .inl ⟨rfl, rfl⟩⟩
  | positive some all =>
    refine ⟨_, _, (lead?_digits some all rest).trans (digits?_append false some all rest), ?_⟩
    exact (span_shorter Char.isDigit _ rest).imp_left (And.imp_left (congrArg (Token.integer false)))
  | negative some all =>
    refine ⟨_, _, (by simpa [lead?] using digits?_append true some all rest), ?_⟩
    exact (span_shorter Char.isDigit _ rest).imp_left (And.imp_left (congrArg (Token.integer true)))
  | @word first others starts continues =>
    obtain ⟨notQuote, notQuote', notMinus, notDigit⟩ := not_digit_of_startsName starts
    obtain ⟨taken, dropped⟩ := span_append continues rest
    refine ⟨ofWord (first :: (others ++ rest).takeWhile continuesName),
      (others ++ rest).dropWhile continuesName,
      by simp [lead?, notQuote, notQuote', notMinus, notDigit, starts], ?_⟩
    rw [taken, dropped]
    exact (span_shorter continuesName (first :: others) rest).imp_left
      (And.imp_left (congrArg ofWord))
  | symbol listed =>
    obtain leads | ⟨found, behind, rfl, leads⟩ := lead?_symbol listed rest
    · exact ⟨token, rest, leads, .inl ⟨rfl, rfl⟩⟩
    · exact ⟨found, behind, leads, .inr (by simp)⟩

/-- **The longest token is the one that is found.** -/
theorem lead?_eq_some_iff {chars rest : List Char} {token : Token} :
    lead? chars = some (token, rest) ↔ Leads chars token rest := by
  constructor
  · intro found
    obtain ⟨lexeme, spells, rfl⟩ := spells_of_lead? found
    refine ⟨lexeme, spells, rfl, fun other longer behind spelled same => ?_⟩
    obtain ⟨found', behind', again, shorter⟩ := lead?_append spelled behind
    rw [← same, found] at again
    simp only [Option.some.injEq, Prod.mk.injEq] at again
    obtain ⟨rfl, rfl⟩ := again
    have lengths := congrArg List.length same
    simp only [List.length_append] at lengths
    obtain ⟨-, rfl⟩ | shorter := shorter <;> omega
  · rintro ⟨lexeme, spells, rfl, longest⟩
    obtain ⟨found, behind, leads, ⟨rfl, rfl⟩ | shorter⟩ := lead?_append spells rest
    · exact leads
    · obtain ⟨longer, spelled, same⟩ := spells_of_lead? leads
      have lengths := congrArg List.length same
      have atMost := longest _ _ _ spelled same
      simp only [List.length_append] at lengths
      omega

/-- A word goes on as long as it can, also where it starts with a reserved one. -/
example : lead? "orange or".toList = some (.name "orange", " or".toList) := by decide

theorem Spells.ne_nil {token : Token} {lexeme : List Char} (spells : Spells token lexeme) :
    lexeme ≠ [] := by
  cases spells with
  | text | negative | word => simp
  | positive some => exact some
  | symbol listed =>
    rintro rfl
    simp [symbols] at listed

theorem length_of_lead? {chars rest : List Char} {token : Token}
    (found : lead? chars = some (token, rest)) : rest.length < chars.length := by
  obtain ⟨lexeme, spells, rfl⟩ := spells_of_lead? found
  simpa [List.length_pos_iff] using spells.ne_nil

/-- No token starts with a gap. -/
theorem lead?_gap {c : Char} (gap : isGap c = true) (rest : List Char) :
    lead? (c :: rest) = none := by
  simp only [isGap, Bool.or_eq_true, beq_iff_eq] at gap
  rcases gap with ((rfl | rfl) | rfl) | rfl <;> simp [lead?, startsName, symbol?]

end Token

/-! ### Splitting a source -/

/-- The tokens of a source: each time the longest one, with any gaps between them. -/
inductive Splits : List Char → List Token → Prop
  | nothing : Splits [] []
  | gap {c : Char} {rest : List Char} {tokens : List Token} (gap : isGap c = true)
      (splits : Splits rest tokens) : Splits (c :: rest) tokens
  | token {chars rest : List Char} {token : Token} {tokens : List Token}
      (leads : token.Leads chars rest) (splits : Splits rest tokens) : Splits chars (token :: tokens)

@[simp] theorem splits_skip_iff {chars : List Char} {tokens : List Token} :
    Splits (grammar.skip chars) tokens ↔ Splits chars tokens := by
  induction chars with
  | nil => rfl
  | cons c rest hypothesis =>
    by_cases gap : isGap c = true
    · have skipped : grammar.skip (c :: rest) = grammar.skip rest := List.dropWhile_cons_of_pos gap
      rw [skipped, hypothesis]
      refine ⟨.gap gap, fun splits => ?_⟩
      cases splits with
      | gap _ splits => exact splits
      | token leads _ =>
        rw [← Token.lead?_eq_some_iff, Token.lead?_gap gap] at leads
        exact absurd leads (by simp)
    · have kept : grammar.skip (c :: rest) = c :: rest := List.dropWhile_cons_of_neg gap
      rw [kept]

@[simp] theorem skip_skip (chars : List Char) :
    grammar.skip (grammar.skip chars) = grammar.skip chars := List.dropWhile_idempotent isGap chars

/-- What is left of a text without gaps at its start has none there. -/
theorem not_gap_of_skip {c : Char} {chars rest : List Char} (left : grammar.skip chars = c :: rest) :
    ¬ isGap c = true := by
  have first := List.head?_dropWhile_not isGap chars
  have same : chars.dropWhile isGap = c :: rest := left
  simpa [same] using first

/-- A source without tokens consists of gaps. -/
theorem splits_nil_iff {chars : List Char} : Splits chars [] ↔ grammar.skip chars = [] := by
  rw [← splits_skip_iff]
  constructor
  · intro splits
    cases left : grammar.skip chars with
    | nil => rfl
    | cons c rest =>
      rw [left] at splits
      cases splits with
      | gap gap _ => exact absurd gap (not_gap_of_skip left)
  · intro empty
    rw [empty]
    exact .nothing

/-- The first token of a source is the one found behind the gap. -/
theorem splits_cons_iff {chars : List Char} {token : Token} {tokens : List Token} :
    Splits chars (token :: tokens) ↔
      ∃ rest, Token.lead? (grammar.skip chars) = some (token, rest) ∧ Splits rest tokens := by
  rw [← splits_skip_iff]
  constructor
  · intro splits
    cases left : grammar.skip chars with
    | nil =>
      rw [left] at splits
      cases splits with
      | token leads splits => exact ⟨_, Token.lead?_eq_some_iff.mpr leads, splits⟩
    | cons c rest =>
      rw [left] at splits
      cases splits with
      | gap gap _ => exact absurd gap (not_gap_of_skip left)
      | token leads splits => exact ⟨_, Token.lead?_eq_some_iff.mpr leads, splits⟩
  · rintro ⟨rest, found, splits⟩
    exact .token (Token.lead?_eq_some_iff.mp found) splits

/-- **A source has at most one split.** -/
theorem Splits.unique {chars : List Char} {tokens tokens' : List Token}
    (splits : Splits chars tokens) (splits' : Splits chars tokens') : tokens = tokens' := by
  induction tokens generalizing chars tokens' with
  | nil =>
    cases tokens' with
    | nil => rfl
    | cons token tokens' =>
      obtain ⟨rest, found, _⟩ := splits_cons_iff.mp splits'
      rw [splits_nil_iff.mp splits] at found
      exact absurd found (by simp [Token.lead?])
  | cons token tokens hypothesis =>
    obtain ⟨rest, found, behind⟩ := splits_cons_iff.mp splits
    cases tokens' with
    | nil =>
      rw [splits_nil_iff.mp splits'] at found
      exact absurd found (by simp [Token.lead?])
    | cons token' tokens' =>
      obtain ⟨rest', found', behind'⟩ := splits_cons_iff.mp splits'
      obtain ⟨rfl, rfl⟩ : token = token' ∧ rest = rest' := by simpa [found] using found'
      rw [hypothesis behind behind']

end BookingAccess.Expression
