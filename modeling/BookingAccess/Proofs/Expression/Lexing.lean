/-
**The tokens of the grammar are the tokens of the source.**

* `Token.rule?` is the rule of the grammar that takes a token;
* `lex_eq_taken`: a rule takes a beginning of a text exactly when that is the longest token there,
  and one of the rule.
-/

import BookingAccess.Proofs.Text.Peg
import BookingAccess.Proofs.Expression.Token

namespace BookingAccess.Expression

open Peg

/-- The rule that takes the token. Brackets and commas are no rules of their own. -/
def Token.rule? : Token → Option Rule
  | .text _ => some .text
  | .integer _ _ => some .integer
  | .boolean _ => some .boolean
  | .null => some .null
  | .name _ => some .identifier
  | .connective operator => some (.connective operator)
  | .not => some .not
  | .comparison _ => some .relation
  | .opening | .closing | .comma => none

section Rules

variable {token : Token}

theorem eq_connective_of_rule? {operator : Connective}
    (isRule : token.rule? = some (.connective operator)) : token = .connective operator := by
  cases token <;> simp_all [Token.rule?]

theorem eq_not_of_rule? (isRule : token.rule? = some .not) : token = .not := by
  cases token <;> simp_all [Token.rule?]

theorem eq_comparison_of_rule? (isRule : token.rule? = some .relation) :
    ∃ relation, token = .comparison relation := by
  cases token <;> simp_all [Token.rule?]

theorem eq_name_of_rule? (isRule : token.rule? = some .identifier) :
    ∃ word, token = .name word := by
  cases token <;> simp_all [Token.rule?]

end Rules

/-! ### Words -/

/-- Words that are made of the characters of names, and of which none is the start of another. -/
structure Spellings (words : List String) : Prop where
  starts : ∀ word ∈ words, word.toList.head?.all startsName = true
  nonempty : ∀ word ∈ words, word.toList ≠ []
  continues : ∀ word ∈ words, word.toList.all continuesName = true
  apart : ∀ word ∈ words, ∀ other ∈ words, word.toList <+: other.toList → word = other

instance (words : List String) : Decidable (Spellings words) :=
  decidable_of_iff ((∀ word ∈ words, word.toList.head?.all startsName = true) ∧
    (∀ word ∈ words, word.toList ≠ []) ∧
    (∀ word ∈ words, word.toList.all continuesName = true) ∧
    ∀ word ∈ words, ∀ other ∈ words, word.toList <+: other.toList → word = other)
    ⟨fun ⟨starts, nonempty, continues, apart⟩ => ⟨starts, nonempty, continues, apart⟩,
      fun ⟨starts, nonempty, continues, apart⟩ => ⟨starts, nonempty, continues, apart⟩⟩

theorem reserved_spellings : Spellings reserved := by decide

/-- The words that are tokens of a rule. -/
def Rule.words : Rule → List String
  | .boolean => ["true", "false"]
  | .null => ["null"]
  | .connective .or => ["or"]
  | .connective .and => ["and"]
  | .not => ["not"]
  | .relation => ["in"]
  | _ => []

theorem Rule.spellings (rule : Rule) : Spellings rule.words := by
  rcases rule with _ | ⟨_ | _⟩ | _ | _ | _ | _ | _ | _ | _ | _ | ⟨_ | _⟩ | _ | _ <;>
    decide

theorem rule?_ofWord_iff {rule : Rule} (reserved : rule ≠ .identifier) (chars : List Char) :
    (Token.ofWord chars).rule? = some rule ↔ String.ofList chars ∈ rule.words := by
  rcases rule with _ | ⟨_ | _⟩ | _ | _ | _ | _ | _ | _ | _ | _ | ⟨_ | _⟩ | _ | _
  all_goals
    unfold Token.ofWord
    split <;> simp_all [Token.rule?, Rule.words]

@[simp] theorem lex_texts (words : List String) (chars : List Char) :
    (texts words : Peg Empty).lex chars = words.findSome? (·.toList.isPrefixOf? chars) := by
  induction words with
  | nil => rfl
  | cons word more hypothesis =>
    cases more with
    | nil => cases taken : word.toList.isPrefixOf? chars <;> simp [texts, taken]
    | cons other more =>
      have later : (texts (word :: other :: more) : Peg Empty) =
          (text word <|> texts (other :: more)) := rfl
      rw [later, lex_orElse, hypothesis, lex_text]
      cases taken : word.toList.isPrefixOf? chars <;> simp [List.findSome?_cons, taken]

theorem isPrefixOf?_eq_some_iff {front chars rest : List Char} :
    front.isPrefixOf? chars = some rest ↔ chars = front ++ rest := by
  induction front generalizing chars with
  | nil => simp only [List.isPrefixOf?, Option.some.injEq, List.nil_append]
  | cons c front hypothesis =>
    cases chars with
    | nil => simp [List.isPrefixOf?]
    | cons d chars =>
      by_cases same : c = d
      · simp [List.isPrefixOf?, hypothesis, same]
      · simp [List.isPrefixOf?, same, Ne.symm same]

/-- The word at the start of a text. -/
def wordAt (chars : List Char) : String := String.ofList (chars.takeWhile continuesName)

theorem lex_wordEnd (chars : List Char) :
    (absent (one continuesName)).lex chars =
      if chars.takeWhile continuesName = [] then some chars else none := by
  cases chars with
  | nil => simp
  | cons c rest => by_cases continues : continuesName c = true <;> simp [continues]

/-- A word of the list is taken where it is all that the characters of names make. -/
theorem lex_word {words : List String} (spellings : Spellings words) (chars : List Char) :
    (word words).lex chars =
      if wordAt chars ∈ words then some (chars.dropWhile continuesName) else none := by
  rw [word, lex_append, lex_texts]
  cases taken : words.findSome? (·.toList.isPrefixOf? chars) with
  | none =>
    have absent : wordAt chars ∉ words := by
      intro listed
      have whole : (wordAt chars).toList.isPrefixOf? chars = some (chars.dropWhile continuesName) :=
        isPrefixOf?_eq_some_iff.mpr (by simp [wordAt])
      rw [List.findSome?_eq_none_iff.mp taken _ listed] at whole
      exact absurd whole (by simp)
    simp [absent]
  | some rest =>
    obtain ⟨found, listed, taken⟩ := List.exists_of_findSome?_eq_some taken
    have same := isPrefixOf?_eq_some_iff.mp taken
    subst same
    have continues := List.all_eq_true.mp (spellings.continues found listed)
    obtain ⟨front, behind⟩ := Token.span_append continues rest
    simp only [Option.bind_some, lex_wordEnd, wordAt, front, behind]
    by_cases ends : rest.takeWhile continuesName = []
    · have kept : rest.dropWhile continuesName = rest := by
        simpa [ends] using List.takeWhile_append_dropWhile (p := continuesName) (l := rest)
      simp [ends, kept, listed]
    · have longer : String.ofList (found.toList ++ rest.takeWhile continuesName) ∉ words := by
        intro listed'
        have same := spellings.apart found listed _ listed' (by simp)
        have lengths := congrArg (fun text => text.toList.length) same
        simp [ends] at lengths
      rw [if_neg ends, if_neg longer]

/-- No word is taken where no name starts. -/
theorem lex_word_cons {words : List String} (spellings : Spellings words) {c : Char}
    (other : startsName c = false) (rest : List Char) : (word words).lex (c :: rest) = none := by
  rw [lex_word spellings, if_neg]
  intro listed
  have starts := spellings.starts _ listed
  have nonempty := spellings.nonempty _ listed
  by_cases continues : continuesName c = true
  · simp [wordAt, continues, other] at starts
  · simp [wordAt, continues] at nonempty

theorem isPrefixOf?_eq_none {front chars : List Char} (different : ∀ rest, ¬ chars = front ++ rest) :
    front.isPrefixOf? chars = none := by
  rw [Option.eq_none_iff_forall_ne_some]
  exact fun rest taken => different rest (isPrefixOf?_eq_some_iff.mp taken)

/-- The rest of the text behind the token, if the rule takes it. -/
def Token.taken (rule : Rule) (found : Option (Token × List Char)) : Option (List Char) :=
  found.bind fun (token, rest) => if token.rule? = some rule then some rest else none

open Token

theorem lex_symbol_relation (chars : List Char) :
    (texts ["==", "!=", "<=", ">=", "<", ">"] : Peg Empty).lex chars =
      taken .relation (symbol? chars) := by
  rw [lex_texts]
  unfold symbol?
  split
  all_goals simp_all [taken, rule?, List.isPrefixOf?, List.findSome?, isPrefixOf?_eq_none]

theorem lex_symbol_not (chars : List Char) :
    (.text "!" ++ absent (.text "=") : Peg Empty).lex chars = taken .not (symbol? chars) := by
  rw [lex_append, lex_text]
  unfold symbol?
  split
  all_goals simp_all [taken, rule?, List.isPrefixOf?, isPrefixOf?_eq_none]

theorem lex_connectiveToken (operator : Connective) (chars : List Char) :
    (connectiveToken operator).lex chars = (taken (.connective operator) (symbol? chars)).or
      ((word (Rule.connective operator).words).lex chars) := by
  cases operator
  all_goals
    rw [connectiveToken, lex_orElse, lex_text]
    unfold symbol?
    split
    all_goals simp_all [taken, rule?, Rule.words, List.isPrefixOf?, isPrefixOf?_eq_none]

/-! ### The rules -/

theorem taken_quoted? {rule : Rule} (other : rule ≠ .text) (quote : Char) (chars : List Char) :
    taken rule (quoted? quote chars) = none := by
  unfold quoted?
  split
  · rfl
  · simp [taken, rule?, other.symm]

theorem taken_digits? {rule : Rule} (other : rule ≠ .integer) (negative : Bool)
    (chars : List Char) : taken rule (digits? negative chars) = none := by
  unfold digits?
  split
  · rfl
  · simp [taken, rule?, other.symm]

theorem taken_symbol? {rule : Rule} (other : ∀ entry ∈ symbols, entry.2.rule? ≠ some rule)
    (chars : List Char) : taken rule (symbol? chars) = none := by
  cases found : symbol? chars with
  | none => rfl
  | some entry =>
    obtain ⟨lexeme, listed, -⟩ := symbol?_listed found
    simp [taken, other _ listed]

/-- No symbol starts with a character of this kind. -/
theorem symbol?_cons_eq_none {c : Char}
    (other : c = '"' ∨ c = '\'' ∨ c = '-' ∨ c.isDigit = true ∨ startsName c = true)
    (rest : List Char) : symbol? (c :: rest) = none := by
  cases found : symbol? (c :: rest) with
  | none => rfl
  | some entry =>
    obtain ⟨lexeme, listed, same⟩ := symbol?_listed found
    exfalso
    simp only [symbols, List.mem_cons, Prod.mk.injEq, List.not_mem_nil, or_false] at listed
    rcases listed with ⟨rfl, -⟩ | ⟨rfl, -⟩ | ⟨rfl, -⟩ | ⟨rfl, -⟩ | ⟨rfl, -⟩ | ⟨rfl, -⟩ |
      ⟨rfl, -⟩ | ⟨rfl, -⟩ | ⟨rfl, -⟩ | ⟨rfl, -⟩ | ⟨rfl, -⟩ | ⟨rfl, -⟩
    all_goals
      obtain ⟨rfl, -⟩ := List.cons.inj same
      revert other
      decide

/-- The kinds of tokens that a text can start with, told by its first character. -/
inductive Kind (c : Char) (rest : List Char) : Prop
  | text (isQuote : c = '"' ∨ c = '\'') (noName : startsName c = false)
      (leads : lead? (c :: rest) = quoted? c rest)
  | negative (isMinus : c = '-') (noName : startsName c = false)
      (leads : lead? (c :: rest) = digits? true rest)
  | positive (digit : c.isDigit = true) (noName : startsName c = false)
      (leads : lead? (c :: rest) = digits? false (c :: rest))
  | word (starts : startsName c = true)
      (leads : lead? (c :: rest) =
        some (ofWord (c :: rest.takeWhile continuesName), rest.dropWhile continuesName))
  | symbol (noQuote : ¬ (c = '"' ∨ c = '\'')) (noMinus : c ≠ '-') (noDigit : c.isDigit = false)
      (noName : startsName c = false) (leads : lead? (c :: rest) = symbol? (c :: rest))

theorem kind (c : Char) (rest : List Char) : Kind c rest := by
  by_cases starts : startsName c = true
  · obtain ⟨notQuote, notQuote', notMinus, notDigit⟩ := not_digit_of_startsName starts
    exact .word starts (by simp [lead?, notQuote, notQuote', notMinus, notDigit, starts])
  have noName : startsName c = false := by simpa using starts
  by_cases isQuote : c = '"' ∨ c = '\''
  · exact .text isQuote noName (by simp [lead?, isQuote])
  by_cases isMinus : c = '-'
  · exact .negative isMinus noName (by simp [lead?, isMinus])
  by_cases digit : c.isDigit = true
  · exact .positive digit noName (by simp [lead?, isQuote, isMinus, digit])
  · exact .symbol isQuote isMinus (by simpa using digit) noName
      (by simp [lead?, isQuote, isMinus, digit, noName])

theorem continuesName_of_startsName {c : Char} (starts : startsName c = true) :
    continuesName c = true := by
  simp only [startsName, continuesName, Char.isAlphanum, Bool.or_eq_true] at starts ⊢
  rcases starts with alpha | underscore
  · exact .inl (.inl alpha)
  · exact .inr underscore

/-- A rule of symbols and words takes the tokens that are spelled so. -/
theorem lex_of_parts {rule : Rule} {pattern : Peg Empty} (notText : rule ≠ .text)
    (notInteger : rule ≠ .integer) (notName : rule ≠ .identifier)
    (parts : ∀ chars,
      pattern.lex chars = (taken rule (symbol? chars)).or ((word rule.words).lex chars))
    (chars : List Char) : pattern.lex chars = taken rule (lead? chars) := by
  rw [parts]
  cases chars with
  | nil =>
    have empty : "" ∉ rule.words := fun listed => rule.spellings.nonempty _ listed rfl
    rw [lex_word rule.spellings]
    simp [wordAt, symbol?, lead?, taken, empty]
  | cons c rest =>
    cases kind c rest with
    | text isQuote noName leads =>
      rw [leads, taken_quoted? notText, lex_word_cons rule.spellings noName,
        symbol?_cons_eq_none (isQuote.elim .inl (.inr ∘ .inl))]
      rfl
    | negative isMinus noName leads =>
      rw [leads, taken_digits? notInteger, lex_word_cons rule.spellings noName,
        symbol?_cons_eq_none (.inr (.inr (.inl isMinus)))]
      rfl
    | positive digit noName leads =>
      rw [leads, taken_digits? notInteger, lex_word_cons rule.spellings noName,
        symbol?_cons_eq_none (.inr (.inr (.inr (.inl digit))))]
      rfl
    | word starts leads =>
      have continues := continuesName_of_startsName starts
      rw [leads, lex_word rule.spellings, symbol?_cons_eq_none (.inr (.inr (.inr (.inr starts))))]
      simp [wordAt, continues, taken, rule?_ofWord_iff notName]
    | symbol _ _ _ noName leads =>
      rw [leads, lex_word_cons rule.spellings noName, Option.or_none]

/-- A rule of words alone. -/
theorem lex_of_words (rule : Rule) (notText : rule ≠ .text) (notInteger : rule ≠ .integer)
    (notName : rule ≠ .identifier) (noSymbol : ∀ entry ∈ symbols, entry.2.rule? ≠ some rule)
    (chars : List Char) : (word rule.words).lex chars = taken rule (lead? chars) :=
  lex_of_parts notText notInteger notName
    (fun chars => by rw [taken_symbol? noSymbol, Option.none_or]) chars

theorem rule?_ofWord_eq_identifier_iff (chars : List Char) :
    (ofWord chars).rule? = some .identifier ↔ String.ofList chars ∉ reserved := by
  unfold ofWord
  split <;> simp_all [rule?, reserved]

/-- An identifier is a word that is not reserved. -/
theorem lex_identifier (chars : List Char) :
    (absent (word reserved) ++ one startsName ++ many (one continuesName)).lex chars =
      taken .identifier (lead? chars) := by
  cases chars with
  | nil => cases none : (word reserved).lex [] <;> simp [lead?, taken, none]
  | cons c rest =>
    have none_of_noName (noName : startsName c = false) :
        (absent (word reserved) ++ one startsName ++ many (one continuesName)).lex (c :: rest) =
          none := by
      simp [lex_word_cons reserved_spellings noName, noName]
    cases kind c rest with
    | text _ noName leads => rw [leads, taken_quoted? (by decide), none_of_noName noName]
    | negative _ noName leads => rw [leads, taken_digits? (by decide), none_of_noName noName]
    | positive _ noName leads => rw [leads, taken_digits? (by decide), none_of_noName noName]
    | symbol _ _ _ noName leads => rw [leads, taken_symbol? (by decide), none_of_noName noName]
    | word starts leads =>
      have continues := continuesName_of_startsName starts
      have whole : wordAt (c :: rest) = String.ofList (c :: rest.takeWhile continuesName) := by
        rw [wordAt, List.takeWhile_cons_of_pos continues]
      rw [leads, taken, Option.bind_some, lex_append, lex_append, lex_absent,
        lex_word reserved_spellings, whole]
      simp only [rule?_ofWord_eq_identifier_iff]
      by_cases listed : String.ofList (c :: rest.takeWhile continuesName) ∈ reserved
      · rw [if_pos listed, if_neg (not_not.mpr listed)]
        rfl
      · rw [if_neg listed, if_pos listed]
        simp [starts]

/-- A text between quotes ends at the next quote. -/
theorem lex_quoted_cons {quote : String} {mark : Char} (single : quote.toList = [mark]) (c : Char)
    (rest : List Char) :
    (quoted quote).lex (c :: rest) = if c = mark then taken .text (quoted? mark rest) else none := by
  have inside (chars : List Char) :
      (absent (.text quote) ++ one fun _ => true : Peg Empty).lex chars =
        (one (· != mark)).lex chars := by
    cases chars with
    | nil => simp [single, List.isPrefixOf?]
    | cons d chars =>
      by_cases same : d = mark
      · simp [single, List.isPrefixOf?, same]
      · simp [single, List.isPrefixOf?, same, Ne.symm same]
  rw [quoted, lex_append, lex_append, lex_text, single, funext (lex_many _ inside)]
  by_cases same : c = mark
  · subst same
    have first := List.head?_dropWhile_not (· != c) rest
    cases ends : rest.dropWhile (· != c) with
    | nil => simp [quoted?, List.isPrefixOf?, single, ends, taken]
    | cons d behind =>
      have isMark : d = c := by simpa [ends] using first
      simp [quoted?, List.isPrefixOf?, single, ends, isMark, taken, rule?]
  · simp [List.isPrefixOf?, same, Ne.symm same]

/-- No word is taken by a rule without words. -/
theorem taken_ofWord {rule : Rule} (notName : rule ≠ .identifier) (noWord : rule.words = [])
    (chars rest : List Char) : taken rule (some (ofWord chars, rest)) = none := by
  have other : (ofWord chars).rule? ≠ some rule := by simp [rule?_ofWord_iff notName, noWord]
  simp [taken, other]

theorem lex_textToken (chars : List Char) :
    (quoted "\"" <|> quoted "'").lex chars = taken .text (lead? chars) := by
  have double : "\"".toList = ['"'] := by decide
  have single : "'".toList = ['\''] := by decide
  cases chars with
  | nil => simp [quoted, List.isPrefixOf?, lead?, taken]
  | cons c rest =>
    rw [lex_orElse, lex_quoted_cons double, lex_quoted_cons single]
    cases kind c rest with
    | text isQuote _ leads => rcases isQuote with rfl | rfl <;> simp [leads]
    | negative isMinus _ leads =>
      rw [leads, taken_digits? (by decide), if_neg (by simp [isMinus]), if_neg (by simp [isMinus])]
      rfl
    | positive digit _ leads =>
      obtain ⟨notDouble, notSingle, -⟩ := ne_of_isDigit digit
      rw [leads, taken_digits? (by decide), if_neg notDouble, if_neg notSingle]
      rfl
    | word starts leads =>
      obtain ⟨notDouble, notSingle, -⟩ := not_digit_of_startsName starts
      rw [leads, taken_ofWord (by decide) rfl, if_neg notDouble, if_neg notSingle]
      rfl
    | symbol noQuote _ _ _ leads =>
      rw [leads, taken_symbol? (by decide), if_neg (noQuote ∘ .inl), if_neg (noQuote ∘ .inr)]
      rfl

/-- An integer is a sign, if there is one, and the digits behind it. -/
theorem lex_digits (negative : Bool) (chars : List Char) :
    (several (one Char.isDigit)).lex chars = taken .integer (digits? negative chars) := by
  cases chars with
  | nil => simp [several, digits?, taken]
  | cons c rest =>
    by_cases digit : c.isDigit = true <;> simp [several, digits?, taken, rule?, digit]

theorem lex_integer (chars : List Char) :
    (maybe (.text "-") ++ several (one Char.isDigit)).lex chars = taken .integer (lead? chars) := by
  cases chars with
  | nil => simp [several, List.isPrefixOf?, lead?, taken]
  | cons c rest =>
    have unsigned (notMinus : c ≠ '-') :
        (maybe (.text "-") ++ several (one Char.isDigit)).lex (c :: rest) =
          taken .integer (digits? false (c :: rest)) := by
      simp [List.isPrefixOf?, Ne.symm notMinus, lex_digits false]
    have none_of_noDigit (noDigit : c.isDigit = false) :
        taken .integer (digits? false (c :: rest)) = none := by
      simp [digits?, taken, noDigit]
    cases kind c rest with
    | text isQuote _ leads =>
      rw [leads, taken_quoted? (by decide)]
      rcases isQuote with rfl | rfl <;>
        exact (unsigned (by decide)).trans (none_of_noDigit (by decide))
    | negative isMinus _ leads =>
      subst isMinus
      simp [leads, List.isPrefixOf?, lex_digits true]
    | positive digit _ leads => rw [leads, unsigned (ne_of_isDigit digit).2.2]
    | word starts leads =>
      obtain ⟨-, -, notMinus, noDigit⟩ := not_digit_of_startsName starts
      rw [leads, taken_ofWord (by decide) rfl, unsigned notMinus, none_of_noDigit noDigit]
    | symbol _ notMinus noDigit _ leads =>
      rw [leads, taken_symbol? (by decide), unsigned notMinus, none_of_noDigit noDigit]

/-- **The rules of tokens take the longest tokens.** A rule takes a beginning of a text exactly
when that is the longest token there and one of the rule. -/
theorem lex_eq_taken {rule : Rule} {pattern : Peg Empty} (body : bodyOf rule = .token pattern)
    (chars : List Char) : pattern.lex chars = taken rule (lead? chars) := by
  cases rule with
  | expression | chain | negation | comparison | call => simp [bodyOf] at body
  | text =>
    cases body
    exact lex_textToken chars
  | integer =>
    cases body
    exact lex_integer chars
  | boolean =>
    cases body
    exact lex_of_words .boolean (by decide) (by decide) (by decide) (by decide) chars
  | null =>
    cases body
    exact lex_of_words .null (by decide) (by decide) (by decide) (by decide) chars
  | identifier =>
    cases body
    exact lex_identifier chars
  | connective operator =>
    cases body
    exact lex_of_parts (by simp) (by simp) (by simp) (lex_connectiveToken operator) chars
  | not =>
    cases body
    refine lex_of_parts (by decide) (by decide) (by decide) (fun chars => ?_) chars
    rw [lex_orElse, lex_symbol_not, Rule.words]
  | relation =>
    cases body
    refine lex_of_parts (by decide) (by decide) (by decide) (fun chars => ?_) chars
    rw [lex_orElse, lex_symbol_relation, Rule.words]

/-! ### Brackets and commas -/

theorem rule?_ofWord_ne_none (chars : List Char) : (ofWord chars).rule? ≠ none := by
  unfold ofWord
  split <;> simp [rule?]

/-- The tokens that are no rules. -/
def brackets : List (Char × Token) := [('(', .opening), (')', .closing), (',', .comma)]

/-- A bracket or a comma is taken where it is the token. -/
theorem isPrefixOf?_bracket {mark : Char} {token : Token} (bracket : (mark, token) ∈ brackets)
    (chars rest : List Char) :
    [mark].isPrefixOf? chars = some rest ↔ lead? chars = some (token, rest) := by
  rw [isPrefixOf?_eq_some_iff]
  simp only [brackets, List.mem_cons, Prod.mk.injEq, List.not_mem_nil, or_false] at bracket
  constructor
  · rintro rfl
    rcases bracket with ⟨rfl, rfl⟩ | ⟨rfl, rfl⟩ | ⟨rfl, rfl⟩ <;> simp [lead?, symbol?, startsName]
  · intro leads
    have noRule : token.rule? = none := by
      rcases bracket with ⟨-, rfl⟩ | ⟨-, rfl⟩ | ⟨-, rfl⟩ <;> rfl
    obtain ⟨lexeme, spells, rfl⟩ := spells_of_lead? leads
    cases spells with
    | text | positive | negative => simp [rule?] at noRule
    | word => exact absurd noRule (rule?_ofWord_ne_none _)
    | symbol listed =>
      have same : lexeme = [mark] := by
        rcases bracket with ⟨rfl, rfl⟩ | ⟨rfl, rfl⟩ | ⟨rfl, rfl⟩ <;> simpa [symbols] using listed
      rw [same]

section Brackets

variable {call : Rule → Parser Rule} {skip : List Char → List Char} {chars rest : List Char}
  {trees : List (ParseTree Rule)}

theorem run_opening_iff :
    (Peg.text "(").run call skip chars = some (trees, rest) ↔
      lead? chars = some (.opening, rest) ∧ trees = [] := by
  have bracket : ('(', Token.opening) ∈ brackets := by simp [brackets]
  rw [run_text_eq_some_iff, ← isPrefixOf?_bracket bracket]
  rfl

theorem run_closing_iff :
    (Peg.text ")").run call skip chars = some (trees, rest) ↔
      lead? chars = some (.closing, rest) ∧ trees = [] := by
  have bracket : (')', Token.closing) ∈ brackets := by simp [brackets]
  rw [run_text_eq_some_iff, ← isPrefixOf?_bracket bracket]
  rfl

theorem run_comma_iff :
    (Peg.text ",").run call skip chars = some (trees, rest) ↔
      lead? chars = some (.comma, rest) ∧ trees = [] := by
  have bracket : (',', Token.comma) ∈ brackets := by simp [brackets]
  rw [run_text_eq_some_iff, ← isPrefixOf?_bracket bracket]
  rfl

end Brackets

/-! ### Trees of tokens -/

theorem lex_eq_some_iff {rule : Rule} {pattern : Peg Empty} (body : bodyOf rule = .token pattern)
    (chars rest : List Char) :
    pattern.lex chars = some rest ↔
      ∃ token, lead? chars = some (token, rest) ∧ token.rule? = some rule := by
  rw [lex_eq_taken body]
  cases leads : lead? chars with
  | none => simp [taken]
  | some found =>
    obtain ⟨token, behind⟩ := found
    by_cases isRule : token.rule? = some rule <;> simp [taken, isRule, and_comm, eq_comm]

/-- **The rule of a token takes the token**, and keeps its spelling. -/
theorem parse_token_iff {rule : Rule} {pattern : Peg Empty} (body : bodyOf rule = .token pattern)
    {depth : Nat} {chars rest : List Char} {trees : List (ParseTree Rule)} :
    grammar.parse (depth + 1) rule chars = some (trees, rest) ↔
      ∃ token lexeme, lead? chars = some (token, rest) ∧ token.rule? = some rule ∧
        Spells token lexeme ∧ chars = lexeme ++ rest ∧ trees = [.node rule lexeme []] := by
  rw [Grammar.parse_token_eq_some_iff body, lex_eq_some_iff body]
  constructor
  · rintro ⟨⟨token, leads, isRule⟩, rfl⟩
    obtain ⟨lexeme, spells, rfl⟩ := spells_of_lead? leads
    exact ⟨token, lexeme, leads, isRule, spells, rfl, by simp⟩
  · rintro ⟨token, lexeme, leads, isRule, _, rfl, rfl⟩
    exact ⟨⟨token, leads, isRule⟩, by simp⟩

theorem parse_token_eq_some {rule : Rule} {pattern : Peg Empty}
    (body : bodyOf rule = .token pattern) {depth : Nat} {chars rest : List Char}
    {trees : List (ParseTree Rule)} (taken : grammar.parse depth rule chars = some (trees, rest)) :
    ∃ token lexeme, lead? chars = some (token, rest) ∧ token.rule? = some rule ∧
      Spells token lexeme ∧ chars = lexeme ++ rest ∧ trees = [.node rule lexeme []] := by
  cases depth with
  | zero => exact absurd taken (by simp [Grammar.parse])
  | succ depth => exact (parse_token_iff body).mp taken

end BookingAccess.Expression
