/-
**What the tree of a token means.**

A token that is a primary by itself is read as what its derivation stands for, and an integer
outside its range is not read at all (`readPrimary_token_iff`).
-/

import BookingAccess.Proofs.Expression.Lexing
import BookingAccess.Proofs.Expression.Derivation

namespace BookingAccess.Expression

open Token

/-- The rules of the tokens that are primaries by themselves. -/
def Rule.IsLiteral (rule : Rule) : Prop :=
  rule = .text ∨ rule = .integer ∨ rule = .boolean ∨ rule = .null ∨ rule = .identifier

/-- Tokens of a derivation mean what it stands for, and nothing else. -/
theorem ok_meaning_iff (leaf : Derivation .primary) (value : Expression) :
    (Except.ok leaf.meaning : Except ExpressionError Expression) = .ok value ↔
      ∃ phrase : Derivation .primary, phrase.tokens = leaf.tokens ∧ phrase.meaning = value := by
  rw [Except.ok.injEq]
  constructor
  · rintro rfl
    exact ⟨leaf, rfl, rfl⟩
  · rintro ⟨phrase, same, rfl⟩
    rw [Derivation.unique same]

theorem integerOfDigits_eq_ok_iff {negative : Bool} {digits : List Char} {value : Int} :
    Text.integerOfDigits negative digits = .ok value ↔
      (-2 ^ 63 ≤ integerValue negative digits ∧ integerValue negative digits < 2 ^ 63) ∧
        integerValue negative digits = value := by
  have size : Nat.pow 2 63 = 2 ^ 63 := rfl
  cases negative with
  | true =>
    simp only [Text.integerOfDigits, integerValue, if_true, size]
    by_cases fits : Text.digitsValue digits ≤ 2 ^ 63
    · rw [if_pos fits]
      exact ⟨fun same => ⟨by omega, Except.ok.inj same⟩, fun ⟨_, same⟩ => congrArg _ same⟩
    · rw [if_neg fits]
      exact ⟨nofun, fun ⟨inRange, _⟩ => absurd inRange.1 (by omega)⟩
  | false =>
    simp only [Text.integerOfDigits, integerValue, Bool.false_eq_true, if_false, size]
    by_cases fits : Text.digitsValue digits < 2 ^ 63
    · rw [if_pos fits]
      exact ⟨fun same => ⟨by omega, Except.ok.inj same⟩, fun ⟨_, same⟩ => congrArg _ same⟩
    · rw [if_neg fits]
      exact ⟨nofun, fun ⟨inRange, _⟩ => absurd inRange.2 (by omega)⟩

theorem exists_integer_iff {negative : Bool} {digits : List Char} {value : Expression} :
    (∃ phrase : Derivation .primary, phrase.tokens = [.integer negative digits] ∧
        phrase.meaning = value) ↔
      (-2 ^ 63 ≤ integerValue negative digits ∧ integerValue negative digits < 2 ^ 63) ∧
        Expression.literal (.integer (integerValue negative digits)) = value := by
  constructor
  · rintro ⟨phrase, same, rfl⟩
    cases phrase with
    | integer negative' digits' inRange =>
      obtain ⟨rfl, rfl⟩ : negative' = negative ∧ digits' = digits := by
        simpa [Derivation.tokens] using same
      exact ⟨inRange, rfl⟩
    | _ => simp [Derivation.tokens] at same
  · rintro ⟨inRange, rfl⟩
    exact ⟨.integer negative digits inRange, rfl, rfl⟩

/-- A word is reserved or else a name. -/
theorem ofWord_cases (chars : List Char) :
    (∃ operator, ofWord chars = .connective operator) ∨ ofWord chars = .not ∨
      (ofWord chars = .comparison .member ∧ String.ofList chars = "in") ∨
      (∃ value, ofWord chars = .boolean value ∧ (String.ofList chars == "true") = value) ∨
      ofWord chars = .null ∨ ofWord chars = .name (String.ofList chars) := by
  unfold ofWord
  split <;> simp_all

theorem integerOf_signed (negative : Bool) {digits : List Char}
    (unsigned : ∀ c ∈ digits, c.isDigit = true) :
    integerOf (if negative then '-' :: digits else digits) =
      Text.integerOfDigits negative digits := by
  cases negative with
  | true => rfl
  | false =>
    cases digits with
    | nil => rfl
    | cons c behind =>
      have other : c ≠ '-' := fun same => absurd (unsigned c (by simp)) (by rw [same]; decide)
      simp [integerOf, other]

theorem readInteger_eq_ok_iff (negative : Bool) {digits : List Char}
    (unsigned : ∀ c ∈ digits, c.isDigit = true) {value : Expression} :
    readInteger (if negative then '-' :: digits else digits) = .ok value ↔
      ∃ phrase : Derivation .primary, phrase.tokens = [.integer negative digits] ∧
        phrase.meaning = value := by
  rw [exists_integer_iff, readInteger, integerOf_signed negative unsigned]
  cases number : Text.integerOfDigits negative digits with
  | ok number =>
    obtain ⟨inRange, same⟩ := integerOfDigits_eq_ok_iff.mp number
    simp only [Except.ok.injEq, ← same, inRange, and_self, true_and]
  | error cause =>
    simp only [reduceCtorEq, false_iff, not_and]
    intro inRange
    rw [integerOfDigits_eq_ok_iff.mpr ⟨inRange, rfl⟩] at number
    cases number

/-- No symbol is a primary. -/
theorem not_isLiteral_of_symbol {token : Token} {lexeme : List Char}
    (listed : (lexeme, token) ∈ symbols) {rule : Rule} (isRule : token.rule? = some rule) :
    ¬ rule.IsLiteral := by
  simp only [symbols, List.mem_cons, Prod.mk.injEq, List.not_mem_nil, or_false] at listed
  rcases listed with ⟨-, rfl⟩ | ⟨-, rfl⟩ | ⟨-, rfl⟩ | ⟨-, rfl⟩ | ⟨-, rfl⟩ | ⟨-, rfl⟩ |
    ⟨-, rfl⟩ | ⟨-, rfl⟩ | ⟨-, rfl⟩ | ⟨-, rfl⟩ | ⟨-, rfl⟩ | ⟨-, rfl⟩ <;>
    cases isRule <;> simp [Rule.IsLiteral]

/-- **A token that is a primary is read as what it stands for.** -/
theorem readPrimary_token_iff {token : Token} {lexeme : List Char} (spells : Spells token lexeme)
    {rule : Rule} (isRule : token.rule? = some rule) (isLiteral : rule.IsLiteral)
    {inner : List (ParseTree Rule)} {value : Expression} :
    readPrimary (.node rule lexeme inner) = .ok value ↔
      ∃ phrase : Derivation .primary, phrase.tokens = [token] ∧ phrase.meaning = value := by
  cases spells with
  | @text quote value' isQuote inside =>
    cases isRule
    have read : readPrimary (.node .text (quote :: (value' ++ [quote])) inner) =
        .ok (Derivation.text (String.ofList value')).meaning := by
      simp [readPrimary, Derivation.meaning]
    rw [read]
    exact ok_meaning_iff (.text (String.ofList value')) value
  | positive some all =>
    cases isRule
    exact readInteger_eq_ok_iff false all
  | negative some all =>
    cases isRule
    exact readInteger_eq_ok_iff true all
  | @word first others starts continues =>
    obtain ⟨operator, same⟩ | same | ⟨same, -⟩ | ⟨truth, same, isTrue⟩ | same | same :=
      ofWord_cases (first :: others)
    · rw [same] at isRule
      cases isRule
      simp [Rule.IsLiteral] at isLiteral
    · rw [same] at isRule
      cases isRule
      simp [Rule.IsLiteral] at isLiteral
    · rw [same] at isRule
      cases isRule
      simp [Rule.IsLiteral] at isLiteral
    · rw [same] at isRule ⊢
      cases isRule
      rw [readPrimary, isTrue]
      exact ok_meaning_iff (.boolean truth) value
    · rw [same] at isRule ⊢
      cases isRule
      rw [readPrimary]
      exact ok_meaning_iff .null value
    · rw [same] at isRule ⊢
      cases isRule
      rw [readPrimary]
      exact ok_meaning_iff (.name (String.ofList (first :: others))) value
  | symbol listed => exact absurd isLiteral (not_isLiteral_of_symbol listed isRule)

/-- A relation is read as it is spelled. -/
theorem readRelation_of_spells {token : Token} {lexeme : List Char} (spells : Spells token lexeme)
    {relation : Comparison} (isRelation : token = .comparison relation) :
    readRelation lexeme = .ok relation := by
  cases spells with
  | text | positive | negative => cases isRelation
  | @word first others starts continues =>
    obtain ⟨operator, same⟩ | same | ⟨same, isIn⟩ | ⟨truth, same, -⟩ | same | same :=
      ofWord_cases (first :: others)
    all_goals
      rw [same] at isRelation
      cases isRelation
    rw [readRelation, isIn]
    rfl
  | symbol listed =>
    simp only [isRelation, symbols, List.mem_cons, Prod.mk.injEq, reduceCtorEq, and_false,
      false_or, Token.comparison.injEq, List.not_mem_nil, or_false] at listed
    rcases listed with ⟨rfl, rfl⟩ | ⟨rfl, rfl⟩ | ⟨rfl, rfl⟩ | ⟨rfl, rfl⟩ | ⟨rfl, rfl⟩ | ⟨rfl, rfl⟩ <;>
      rfl

/-- A name is spelled as it is. -/
theorem ofList_of_spells {token : Token} {lexeme : List Char} (spells : Spells token lexeme)
    {word : String} (isName : token = .name word) : String.ofList lexeme = word := by
  cases spells with
  | text | positive | negative => cases isName
  | @word first others starts continues =>
    obtain ⟨operator, same⟩ | same | ⟨same, isIn⟩ | ⟨truth, same, -⟩ | same | same :=
      ofWord_cases (first :: others)
    all_goals
      rw [same] at isName
      cases isName
    rfl
  | symbol listed => simp [isName, symbols] at listed

/-! ### Chains -/

/-- The expression of a chain. -/
def readChain (operator : Connective) (inner : List (ParseTree Rule)) :
    Except ExpressionError Expression := readOperands operator inner >>= operator.collapse

/-- One more operand of a chain, behind its operator. -/
abbrev another (depth : Nat) (operator : Connective) : Parser Rule :=
  Peg.round (grammar.parse depth) grammar.skip
    (Peg.call (.connective operator) ++ Peg.call operator.operand)

/-- One more negation. -/
abbrev anotherNot (depth : Nat) : Parser Rule :=
  Peg.round (grammar.parse depth) grammar.skip (Peg.call .not)

/-- The expression of an operand. -/
def readOperand : Connective → List (ParseTree Rule) → Except ExpressionError Expression
  | .or, inner => readChain .and inner
  | .and, inner => readNegations 0 none inner

theorem readOperands_operand (operator : Connective) (text : List Char)
    (inner trees : List (ParseTree Rule)) :
    readOperands operator (.node operator.operand text inner :: trees) = do
      let operand ← readOperand operator inner
      let operands ← readOperands operator trees
      return operand :: operands := by
  rw [readOperands, if_pos rfl]
  cases operator <;> rfl

theorem readOperands_connective (operator : Connective) (text : List Char)
    (inner trees : List (ParseTree Rule)) :
    readOperands operator (.node (.connective operator) text inner :: trees) =
      readOperands operator trees := by
  rw [readOperands, if_neg (by cases operator <;> simp [Connective.operand]), if_pos rfl]

theorem collapse_cons (operator : Connective) (first : Expression) (more : List Expression) :
    operator.collapse (first :: more) = .ok (Derivation.flat operator first more) := by
  cases more <;> rfl

/-- Negations before an operand are counted. -/
theorem readNegations_not (count : Nat) (operand : Option Expression) (text : List Char)
    (inner trees : List (ParseTree Rule)) :
    readNegations count operand (.node .not text inner :: trees) =
      readNegations (count + 1) operand trees := by
  rw [readNegations]

theorem readNegations_comparison (count : Nat) (text : List Char)
    (inner : List (ParseTree Rule)) :
    readNegations count none [.node .comparison text inner] = do
      let operand ← readComparison inner
      return Nat.repeat Expression.negation count operand := by
  rw [readNegations]
  cases readComparison inner with
  | error => rfl
  | ok operand =>
    simp only [bind, Except.bind]
    rw [readNegations]
    rfl

end BookingAccess.Expression
