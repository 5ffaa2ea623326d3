/-
**The grammar of expressions over tokens.**

```
chain c    := operand c (c operand c)*        for c = or, and
operand or := chain and
operand and := negation
negation   := not negation | comparison
comparison := primary | primary relation primary
primary    := text | integer | boolean | null | name | group "(" argument ")" | "(" chain or ")"
argument   := text | "(" argument ")"
```

Integers lie in the signed 64-bit range. A derivation has its tokens and the expression that it
means.

* `Derivation.unique`: tokens have at most one derivation, whatever follows them that could not
  belong to it.
-/

import Mathlib.Algebra.Group.Int.Defs
import BookingAccess.Expression.Reading
import BookingAccess.Proofs.Expression.Token

namespace BookingAccess.Expression

inductive Category
  | chain (connective : Connective)
  /-- The operands of a chain behind the first one. -/
  | more (connective : Connective)
  | operand (connective : Connective)
  | negation
  | comparison
  | primary
  | argument

/-- What a phrase of the category stands for. -/
abbrev Category.Meaning : Category → Type
  | .more _ => List Expression
  | .argument => String
  | _ => Expression

/-- The number that a sign and digits write. -/
def integerValue (negative : Bool) (digits : List Char) : Int :=
  if negative then -(Text.digitsValue digits : Int) else Text.digitsValue digits

inductive Derivation : Category → Type
  | chain {connective : Connective} (first : Derivation (.operand connective))
      (more : Derivation (.more connective)) : Derivation (.chain connective)
  | done {connective : Connective} : Derivation (.more connective)
  | another {connective : Connective} (operand : Derivation (.operand connective))
      (more : Derivation (.more connective)) : Derivation (.more connective)
  | disjunct (operand : Derivation (.chain .and)) : Derivation (.operand .or)
  | conjunct (operand : Derivation .negation) : Derivation (.operand .and)
  | negated (operand : Derivation .negation) : Derivation .negation
  | plain (operand : Derivation .comparison) : Derivation .negation
  | single (operand : Derivation .primary) : Derivation .comparison
  | compared (relation : Comparison) (left right : Derivation .primary) : Derivation .comparison
  | text (value : String) : Derivation .primary
  | integer (negative : Bool) (digits : List Char)
      (inRange : -2 ^ 63 ≤ integerValue negative digits ∧ integerValue negative digits < 2 ^ 63) :
      Derivation .primary
  | boolean (value : Bool) : Derivation .primary
  | null : Derivation .primary
  | name (word : String) : Derivation .primary
  | group (argument : Derivation .argument) : Derivation .primary
  | bracketed (inner : Derivation (.chain .or)) : Derivation .primary
  | quoted (value : String) : Derivation .argument
  | enclosed (inner : Derivation .argument) : Derivation .argument

namespace Derivation

/-- The tokens of a phrase, from left to right. -/
def tokens {category : Category} : Derivation category → List Token
  | .chain first more => first.tokens ++ more.tokens
  | .done => []
  | @another connective operand more => .connective connective :: (operand.tokens ++ more.tokens)
  | .disjunct operand => operand.tokens
  | .conjunct operand => operand.tokens
  | .negated operand => .not :: operand.tokens
  | .plain operand => operand.tokens
  | .single operand => operand.tokens
  | .compared relation left right => left.tokens ++ .comparison relation :: right.tokens
  | .text value => [.text value]
  | .integer negative digits _ => [.integer negative digits]
  | .boolean value => [.boolean value]
  | .null => [.null]
  | .name word => [.name word]
  | .group argument => .name "group" :: .opening :: (argument.tokens ++ [.closing])
  | .bracketed inner => .opening :: (inner.tokens ++ [.closing])
  | .quoted value => [.text value]
  | .enclosed inner => .opening :: (inner.tokens ++ [.closing])

/-- A chain of one operand stands for the operand, a longer one is flat. -/
def flat (connective : Connective) (first : Expression) : List Expression → Expression
  | [] => first
  | more => connective.connect (first :: more)

/-- What a phrase stands for. -/
def meaning {category : Category} : Derivation category → category.Meaning
  | @chain connective first more => flat connective first.meaning more.meaning
  | .done => ([] : List Expression)
  | .another operand more => (operand.meaning :: more.meaning : List Expression)
  | .disjunct operand => operand.meaning
  | .conjunct operand => operand.meaning
  | .negated operand => Expression.negation operand.meaning
  | .plain operand => operand.meaning
  | .single operand => operand.meaning
  | .compared relation left right => Expression.comparison relation left.meaning right.meaning
  | .text value => Expression.literal (.text value)
  | .integer negative digits _ => Expression.literal (.integer (integerValue negative digits))
  | .boolean value => Expression.literal (.boolean value)
  | .null => Expression.literal .null
  | .name word => Expression.property word
  | .group argument => Expression.group argument.meaning
  | .bracketed inner => inner.meaning
  | .quoted value => (value : String)
  | .enclosed inner => inner.meaning

/-- The phrase under so many negations. -/
def negate : Nat → Derivation .negation → Derivation .negation
  | 0, operand => operand
  | count + 1, operand => .negated (negate count operand)

theorem tokens_negate (count : Nat) (operand : Derivation .negation) :
    (negate count operand).tokens = List.replicate count .not ++ operand.tokens := by
  induction count with
  | zero => rfl
  | succ count hypothesis => rw [negate, tokens, hypothesis, List.replicate_succ, List.cons_append]

theorem meaning_negate (count : Nat) (operand : Derivation .negation) :
    (negate count operand).meaning = Nat.repeat Expression.negation count operand.meaning := by
  induction count with
  | zero => rfl
  | succ count hypothesis => rw [negate, meaning, hypothesis, Nat.repeat]

/-- A primary as a whole expression. -/
def whole (operand : Derivation .primary) : Derivation (.chain .or) :=
  .chain (.disjunct (.chain (.conjunct (.plain (.single operand))) .done)) .done

/-- An argument as a whole expression. -/
def ofArgument : Derivation .argument → Derivation (.chain .or)
  | .quoted value => whole (.text value)
  | .enclosed inner => whole (.bracketed inner.ofArgument)

@[simp] theorem tokens_whole (operand : Derivation .primary) :
    operand.whole.tokens = operand.tokens := by
  simp [whole, tokens]

@[simp] theorem meaning_whole (operand : Derivation .primary) :
    operand.whole.meaning = operand.meaning := by
  simp [whole, meaning, flat]

theorem tokens_ofArgument : ∀ argument : Derivation .argument,
    argument.ofArgument.tokens = argument.tokens
  | .quoted _ => by rw [ofArgument, tokens_whole, tokens, tokens]
  | .enclosed inner => by rw [ofArgument, tokens_whole, tokens, tokens, inner.tokens_ofArgument]

theorem meaning_ofArgument : ∀ argument : Derivation .argument,
    argument.ofArgument.meaning = Expression.literal (.text argument.meaning)
  | .quoted _ => by rw [ofArgument, meaning_whole, meaning, meaning]
  | .enclosed inner => by rw [ofArgument, meaning_whole, meaning, meaning, inner.meaning_ofArgument]

/-- A whole expression that stands for a text is that text, in brackets or not. -/
theorem exists_argument : ∀ (phrase : Derivation (.chain .or)) {name : String},
    phrase.meaning = Expression.literal (.text name) →
      ∃ argument : Derivation .argument, argument.meaning = name ∧ argument.tokens = phrase.tokens
  | .chain (.disjunct (.chain (.conjunct (.plain (.single primary))) .done)) .done, written, means => by
    cases primary with
    | text value =>
      obtain rfl : value = written := by simpa [meaning, flat] using means
      exact ⟨.quoted value, rfl, rfl⟩
    | bracketed inner =>
      obtain ⟨argument, rfl, same⟩ := inner.exists_argument means
      exact ⟨.enclosed argument, rfl, by simp [tokens, same]⟩
    | _ => simp [meaning, flat] at means
  | .chain (.disjunct (.chain (.conjunct (.plain (.compared ..))) .done)) .done, _, means => by
    simp [meaning, flat] at means
  | .chain (.disjunct (.chain (.conjunct (.negated _)) .done)) .done, _, means => by
    simp [meaning, flat] at means
  | .chain (.disjunct (.chain _ (.another ..))) .done, _, means => by
    simp [meaning, flat, Connective.connect] at means
  | .chain _ (.another ..), _, means => by
    simp [meaning, flat, Connective.connect] at means

end Derivation

/-! ### What may follow a phrase -/

/-- How strongly an operator binds. -/
def Connective.binding : Connective → Nat
  | .or => 1
  | .and => 2

/-- How strongly a token binds to the phrase before it. -/
def Token.binding : Token → Nat
  | .connective operator => operator.binding
  | .comparison _ => 3
  | .opening => 4
  | _ => 0

/-- How strongly a token has to bind to be part of the phrase that it follows. -/
def Category.binding : Category → Nat
  | .chain connective => connective.binding
  | .more connective => connective.binding
  | .operand connective => connective.binding + 1
  | .negation => 3
  | .comparison => 3
  | .primary => 4
  | .argument => 5

/-- The tokens go on with something that is no part of the phrase before them. -/
def Category.Ends (category : Category) : List Token → Prop
  | [] => True
  | token :: _ => token.binding < category.binding

namespace Category

@[simp] theorem ends_cons_iff {category : Category} {token : Token} {rest : List Token} :
    category.Ends (token :: rest) ↔ token.binding < category.binding := Iff.rfl

theorem Ends.weaken {category stronger : Category} {rest : List Token} (ends : category.Ends rest)
    (le : category.binding ≤ stronger.binding) : stronger.Ends rest := by
  cases rest with
  | nil => trivial
  | cons token _ => exact Nat.lt_of_lt_of_le ends le

/-- A token that binds nothing is no part of the phrase before it. -/
theorem ends_of_binding_eq_zero (category : Category) {token : Token} (free : token.binding = 0)
    (rest : List Token) : category.Ends (token :: rest) := by
  rw [ends_cons_iff, free]
  rcases category with ⟨_ | _⟩ | ⟨_ | _⟩ | ⟨_ | _⟩ | _ | _ | _ | _ <;> decide

/-- Behind the operands of a chain there is not the operator of the chain. -/
theorem not_ends_more {operator : Connective} {rest : List Token} :
    ¬ (Category.more operator).Ends (.connective operator :: rest) := Nat.lt_irrefl _

end Category

namespace Derivation

/-- An operand ends before the next operator of its chain, and at the end of the chain. -/
theorem ends_more {connective : Connective} (more : Derivation (.more connective))
    {rest : List Token} (ends : (Category.more connective).Ends rest) :
    (Category.operand connective).Ends (more.tokens ++ rest) := by
  cases more with
  | done => exact ends.weaken (Nat.le_succ _)
  | another operand more => exact Nat.lt_succ_self _

/-- No primary starts with a negation. -/
theorem primary_tokens (phrase : Derivation .primary) :
    ∃ token others, phrase.tokens = token :: others ∧ token ≠ .not := by
  cases phrase <;> exact ⟨_, _, rfl, by simp⟩

/-- No comparison starts with a negation. -/
theorem comparison_tokens (phrase : Derivation .comparison) :
    ∃ token others, phrase.tokens = token :: others ∧ token ≠ .not := by
  cases phrase with
  | single operand => exact operand.primary_tokens
  | compared relation left right =>
    obtain ⟨token, others, same, different⟩ := left.primary_tokens
    exact ⟨token, _, by rw [tokens, same, List.cons_append], different⟩

/-- The closing bracket ends what it encloses. -/
theorem unique_before_closing {category : Category} {inner inner' : Derivation category}
    {rest rest' : List Token}
    (unique : ∀ (other : Derivation category) {rest rest' : List Token}, category.Ends rest →
      category.Ends rest' → inner.tokens ++ rest = other.tokens ++ rest' →
      inner = other ∧ rest = rest')
    (same : inner.tokens ++ ([.closing] ++ rest) = inner'.tokens ++ ([.closing] ++ rest')) :
    inner = inner' ∧ rest = rest' := by
  obtain ⟨rfl, behind⟩ := unique inner' (category.ends_of_binding_eq_zero rfl rest)
    (category.ends_of_binding_eq_zero rfl rest') same
  exact ⟨rfl, (List.cons.inj behind).2⟩

/-- **Tokens have at most one derivation**, whatever follows that cannot belong to it. -/
theorem unique_append {category : Category} (phrase phrase' : Derivation category)
    {rest rest' : List Token} (ends : category.Ends rest) (ends' : category.Ends rest')
    (same : phrase.tokens ++ rest = phrase'.tokens ++ rest') : phrase = phrase' ∧ rest = rest' := by
  induction phrase generalizing rest rest' with
  | chain first more firstUnique moreUnique =>
    cases phrase' with
    | chain first' more' =>
      simp only [tokens, List.append_assoc] at same
      obtain ⟨rfl, behind⟩ := firstUnique first' (more.ends_more ends) (more'.ends_more ends') same
      obtain ⟨rfl, rfl⟩ := moreUnique more' ends ends' behind
      exact ⟨rfl, rfl⟩
  | done =>
    cases phrase' with
    | done => exact ⟨rfl, same⟩
    | another operand more =>
      simp only [tokens, List.nil_append, List.cons_append] at same
      subst same
      exact absurd ends Category.not_ends_more
  | another operand more operandUnique moreUnique =>
    cases phrase' with
    | done =>
      simp only [tokens, List.nil_append, List.cons_append] at same
      subst same
      exact absurd ends' Category.not_ends_more
    | another operand' more' =>
      simp only [tokens, List.cons_append, List.append_assoc, List.cons.injEq, true_and] at same
      obtain ⟨rfl, behind⟩ :=
        operandUnique operand' (more.ends_more ends) (more'.ends_more ends') same
      obtain ⟨rfl, rfl⟩ := moreUnique more' ends ends' behind
      exact ⟨rfl, rfl⟩
  | disjunct operand operandUnique =>
    cases phrase' with
    | disjunct operand' =>
      obtain ⟨rfl, rfl⟩ := operandUnique operand' ends ends' same
      exact ⟨rfl, rfl⟩
  | conjunct operand operandUnique =>
    cases phrase' with
    | conjunct operand' =>
      obtain ⟨rfl, rfl⟩ := operandUnique operand' ends ends' same
      exact ⟨rfl, rfl⟩
  | negated operand operandUnique =>
    cases phrase' with
    | negated operand' =>
      simp only [tokens, List.cons_append, List.cons.injEq, true_and] at same
      obtain ⟨rfl, rfl⟩ := operandUnique operand' ends ends' same
      exact ⟨rfl, rfl⟩
    | plain operand' =>
      obtain ⟨token, others, leads, different⟩ := operand'.comparison_tokens
      simp only [tokens, leads, List.cons_append, List.cons.injEq] at same
      exact absurd same.1.symm different
  | plain operand operandUnique =>
    cases phrase' with
    | negated operand' =>
      obtain ⟨token, others, leads, different⟩ := operand.comparison_tokens
      simp only [tokens, leads, List.cons_append, List.cons.injEq] at same
      exact absurd same.1 different
    | plain operand' =>
      obtain ⟨rfl, rfl⟩ := operandUnique operand' ends ends' same
      exact ⟨rfl, rfl⟩
  | single operand operandUnique =>
    cases phrase' with
    | single operand' =>
      obtain ⟨rfl, rfl⟩ := operandUnique operand' (ends.weaken (by decide))
        (ends'.weaken (by decide)) same
      exact ⟨rfl, rfl⟩
    | compared relation left right =>
      simp only [tokens, List.append_assoc, List.cons_append] at same
      obtain ⟨-, rfl⟩ := operandUnique left (ends.weaken (by decide)) (Nat.lt_succ_self _) same
      exact absurd ends (Nat.lt_irrefl _)
  | compared relation left right leftUnique rightUnique =>
    cases phrase' with
    | single operand' =>
      simp only [tokens, List.append_assoc, List.cons_append] at same
      obtain ⟨-, rfl⟩ := leftUnique operand' (Nat.lt_succ_self _) (ends'.weaken (by decide)) same
      exact absurd ends' (Nat.lt_irrefl _)
    | compared relation' left' right' =>
      simp only [tokens, List.append_assoc, List.cons_append] at same
      obtain ⟨rfl, behind⟩ := leftUnique left' (Nat.lt_succ_self _) (Nat.lt_succ_self _) same
      simp only [List.cons.injEq, Token.comparison.injEq] at behind
      obtain ⟨rfl, rfl⟩ := rightUnique right' (ends.weaken (by decide)) (ends'.weaken (by decide))
        behind.2
      exact ⟨by rw [behind.1], rfl⟩
  | text value =>
    cases phrase' with
    | text => simpa [tokens] using same
    | _ => simp [tokens] at same
  | integer negative digits inRange =>
    cases phrase' with
    | integer => simpa [tokens, and_assoc] using same
    | _ => simp [tokens] at same
  | boolean value =>
    cases phrase' with
    | boolean => simpa [tokens] using same
    | _ => simp [tokens] at same
  | null =>
    cases phrase' with
    | null => simpa [tokens] using same
    | _ => simp [tokens] at same
  | name word =>
    cases phrase' with
    | name => simpa [tokens] using same
    | group argument =>
      simp only [tokens, List.cons_append, List.nil_append, List.cons.injEq] at same
      rw [same.2] at ends
      exact absurd ends (Nat.lt_irrefl _)
    | _ => simp [tokens] at same
  | group argument argumentUnique =>
    cases phrase' with
    | name =>
      simp only [tokens, List.cons_append, List.nil_append, List.cons.injEq] at same
      rw [← same.2] at ends'
      exact absurd ends' (Nat.lt_irrefl _)
    | group argument' =>
      simp only [tokens, List.cons_append, List.append_assoc, List.cons.injEq, true_and] at same
      obtain ⟨rfl, rfl⟩ := unique_before_closing argumentUnique same
      exact ⟨rfl, rfl⟩
    | _ => simp [tokens] at same
  | bracketed inner innerUnique =>
    cases phrase' with
    | bracketed inner' =>
      simp only [tokens, List.cons_append, List.append_assoc, List.cons.injEq, true_and] at same
      obtain ⟨rfl, rfl⟩ := unique_before_closing innerUnique same
      exact ⟨rfl, rfl⟩
    | _ => simp [tokens] at same
  | quoted value =>
    cases phrase' with
    | quoted => simpa [tokens] using same
    | enclosed => simp [tokens] at same
  | enclosed inner innerUnique =>
    cases phrase' with
    | quoted => simp [tokens] at same
    | enclosed inner' =>
      simp only [tokens, List.cons_append, List.append_assoc, List.cons.injEq, true_and] at same
      obtain ⟨rfl, rfl⟩ := unique_before_closing innerUnique same
      exact ⟨rfl, rfl⟩

/-- **The grammar is unambiguous.** -/
theorem unique {category : Category} {phrase phrase' : Derivation category}
    (same : phrase.tokens = phrase'.tokens) : phrase = phrase' := by
  have ends : category.Ends [] := trivial
  have ended : phrase.tokens ++ [] = phrase'.tokens ++ [] := by rw [same]
  exact (unique_append phrase phrase' ends ends ended).1

end Derivation

end BookingAccess.Expression
