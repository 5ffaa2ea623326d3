/-
**What is derived is accepted.**

Where the tokens of a text start with a phrase, and nothing behind the phrase belongs to it, the
rule of the phrase takes exactly these tokens and its tree is read as what the phrase stands for.
The proof is by induction on the derivation, one lemma for each constructor.

* `complete`: every derivation is accepted, at a depth in proportion to the length of the text.
-/

import BookingAccess.Proofs.Expression.Reading

namespace BookingAccess.Expression

open Peg Token

/-! ### What comes next -/

theorem Splits.length_le {chars : List Char} {tokens : List Token} (splits : Splits chars tokens) :
    tokens.length ≤ chars.length := by
  induction splits with
  | nothing => exact Nat.le_refl 0
  | gap _ _ hypothesis => exact Nat.le_succ_of_le hypothesis
  | token leads _ hypothesis =>
    have shorter := length_of_lead? (lead?_eq_some_iff.mpr leads)
    exact Nat.succ_le_of_lt (Nat.lt_of_le_of_lt hypothesis shorter)

theorem length_skip_le (chars : List Char) : (grammar.skip chars).length ≤ chars.length :=
  List.length_dropWhile_le isGap chars

/-- The next token does not belong to a phrase that ends before it. -/
theorem binding_lt_of_ends {category : Category} {chars rest : List Char} {more : List Token}
    {token : Token} (splits : Splits chars more) (ends : category.Ends more)
    (leads : lead? (grammar.skip chars) = some (token, rest)) :
    token.binding < category.binding := by
  cases more with
  | nil =>
    rw [splits_nil_iff.mp splits] at leads
    exact absurd leads (by simp [lead?])
  | cons token' more =>
    obtain ⟨_, leads', -⟩ := splits_cons_iff.mp splits
    obtain ⟨rfl, -⟩ : token' = token ∧ _ := by simpa [leads'] using leads
    exact ends

section Tokens

variable {rule : Rule} {pattern : Peg Empty} {chars rest : List Char} {token : Token} {depth : Nat}

theorem parse_token_some (body : bodyOf rule = .token pattern) (isRule : token.rule? = some rule)
    (leads : lead? chars = some (token, rest)) (deep : 0 < depth) :
    ∃ lexeme, Spells token lexeme ∧
      grammar.parse depth rule chars = some ([.node rule lexeme []], rest) := by
  obtain ⟨depth, rfl⟩ := Nat.exists_eq_succ_of_ne_zero deep.ne'
  obtain ⟨lexeme, spells, same⟩ := spells_of_lead? leads
  exact ⟨lexeme, spells,
    (parse_token_iff body).mpr ⟨token, lexeme, leads, isRule, spells, same, rfl⟩⟩

/-- The rule of other tokens does not take the token. -/
theorem parse_token_none (body : bodyOf rule = .token pattern)
    (other : ∀ token rest, lead? chars = some (token, rest) → token.rule? ≠ some rule) :
    grammar.parse depth rule chars = none := by
  cases depth with
  | zero => rfl
  | succ depth =>
    rw [Option.eq_none_iff_forall_ne_some]
    rintro ⟨trees, rest⟩ taken
    obtain ⟨token, _, leads, isRule, -⟩ := (parse_token_iff body).mp taken
    exact other token rest leads isRule

end Tokens

/-! ### Acceptance -/

/-- The rule takes all tokens up to `more`, and its tree is read as the value. -/
def Accepts {α : Type} (depth : Nat) (rule : Rule)
    (read : List (ParseTree Rule) → Except ExpressionError α) (chars : List Char) (value : α)
    (more : List Token) : Prop :=
  ∃ text inner rest, grammar.parse depth rule (grammar.skip chars) =
      some ([.node rule text inner], rest) ∧
    read inner = .ok value ∧ Splits rest more ∧ rest.length < chars.length

/-- A primary takes all tokens up to `more`, and its tree is read as the value. -/
def AcceptsPrimary (depth : Nat) (chars : List Char) (value : Expression) (more : List Token) :
    Prop :=
  ∃ tree rest, anyPrimary.run (grammar.parse depth) grammar.skip (grammar.skip chars) =
      some ([tree], rest) ∧
    readPrimary tree = .ok value ∧ Splits rest more ∧ rest.length < chars.length

/-- The repetition takes all tokens up to `more`, and its trees are read as the operands. -/
def AcceptsMore (depth rounds : Nat) (operator : Connective) (chars : List Char)
    (values : List Expression) (more : List Token) : Prop :=
  readOperands operator (again (another depth operator) rounds chars).1 = .ok values ∧
    Splits (again (another depth operator) rounds chars).2 more ∧
    (again (another depth operator) rounds chars).2.length ≤ chars.length

/-- Negations and the comparison behind them take all tokens up to `more`. -/
def AcceptsNegations (depth rounds : Nat) (chars : List Char) (value : Expression)
    (more : List Token) : Prop :=
  ∃ nots middle text inner rest,
    again (anotherNot depth) rounds chars = (nots, middle) ∧
    grammar.parse depth .comparison (grammar.skip middle) =
      some ([.node .comparison text inner], rest) ∧
    (∀ before, readNegations before none (nots ++ [.node .comparison text inner]) =
      .ok (Nat.repeat Expression.negation before value)) ∧
    Splits rest more ∧ rest.length < chars.length

/-- How many rules may be called before the phrase has a token. -/
def Category.rank : Category → Nat
  | .chain .or => 5
  | .operand .or | .more .or | .chain .and => 4
  | .operand .and | .more .and => 3
  | .negation => 3
  | .comparison => 2
  | .primary => 1
  | .argument => 5

theorem rank_more (operator : Connective) :
    (Category.more operator).rank = (Category.operand operator).rank := by
  cases operator <;> rfl

theorem rank_chain (operator : Connective) :
    (Category.chain operator).rank = (Category.operand operator).rank + 1 := by
  cases operator <;> rfl

/-- The phrase is accepted wherever nothing behind it belongs to it. -/
def Complete : {category : Category} → Derivation category → Prop
  | .chain operator, phrase => ∀ depth chars more, Splits chars (phrase.tokens ++ more) →
      (Category.chain operator).Ends more →
      4 * chars.length + (Category.chain operator).rank ≤ depth →
      Accepts depth (.chain operator) (readChain operator) chars phrase.meaning more
  | .more operator, phrase => ∀ depth rounds chars more, Splits chars (phrase.tokens ++ more) →
      (Category.more operator).Ends more →
      4 * chars.length + (Category.more operator).rank ≤ depth → phrase.tokens.length ≤ rounds →
      AcceptsMore depth rounds operator chars phrase.meaning more
  | .operand operator, phrase => ∀ depth chars more, Splits chars (phrase.tokens ++ more) →
      (Category.operand operator).Ends more →
      4 * chars.length + (Category.operand operator).rank ≤ depth →
      Accepts depth operator.operand (readOperand operator) chars phrase.meaning more
  | .negation, phrase => ∀ depth rounds chars more, Splits chars (phrase.tokens ++ more) →
      Category.negation.Ends more → 4 * chars.length + Category.comparison.rank ≤ depth →
      phrase.tokens.length ≤ rounds → AcceptsNegations depth rounds chars phrase.meaning more
  | .comparison, phrase => ∀ depth chars more, Splits chars (phrase.tokens ++ more) →
      Category.comparison.Ends more → 4 * chars.length + Category.comparison.rank ≤ depth →
      Accepts depth .comparison readComparison chars phrase.meaning more
  | .primary, phrase => ∀ depth chars more, Splits chars (phrase.tokens ++ more) →
      Category.primary.Ends more → 4 * chars.length + Category.primary.rank ≤ depth →
      AcceptsPrimary depth chars phrase.meaning more
  | .argument, phrase => ∀ depth chars more, Splits chars (phrase.tokens ++ more) →
      (Category.chain .or).Ends more → 4 * chars.length + (Category.chain .or).rank ≤ depth →
      Accepts depth (.chain .or) (readChain .or) chars
        (Expression.literal (.text phrase.meaning)) more

/-! ### Chains -/

section Chains

variable {operator : Connective}

theorem complete_done : Complete (.done : Derivation (.more operator)) := by
  intro depth rounds chars more splits ends deep enough
  have stops : another depth operator chars = none := by
    have noOperator : grammar.parse depth (.connective operator) (grammar.skip chars) = none := by
      refine parse_token_none rfl fun token rest leads isRule => ?_
      obtain rfl := eq_connective_of_rule? isRule
      exact absurd (binding_lt_of_ends splits ends leads) (Nat.lt_irrefl _)
    exact run_append_eq_none noOperator
  have nothing : again (another depth operator) rounds chars = ([], chars) := by
    cases rounds with
    | zero => rfl
    | succ rounds => rw [again, stops]
  rw [AcceptsMore, nothing]
  exact ⟨by rw [readOperands]; rfl, splits, Nat.le_refl _⟩

theorem complete_another {operand : Derivation (.operand operator)}
    {more : Derivation (.more operator)} (completeOperand : Complete operand)
    (completeMore : Complete more) : Complete (.another operand more) := by
  intro depth rounds chars behind splits ends deep enough
  rw [rank_more] at deep
  rw [Derivation.tokens, List.cons_append, List.append_assoc] at splits
  obtain ⟨middle, leads, splits⟩ := splits_cons_iff.mp splits
  have shorter := length_of_lead? leads
  have skipped := length_skip_le chars
  obtain ⟨lexeme, -, takenOperator⟩ :=
    parse_token_some rfl rfl leads (show 0 < depth by omega)
  obtain ⟨text, inner, rest, takenOperand, reads, splits, less⟩ :=
    completeOperand depth middle _ splits (more.ends_more ends) (by omega)
  obtain ⟨rounds, rfl, enoughMore⟩ :
      ∃ fewer, rounds = fewer + 1 ∧ more.tokens.length ≤ fewer := by
    rw [Derivation.tokens, List.length_cons, List.length_append] at enough
    exact ⟨rounds - 1, by omega, by omega⟩
  obtain ⟨readsMore, splits, le⟩ :=
    completeMore depth rounds rest behind splits ends (by rw [rank_more]; omega) enoughMore
  have taken : another depth operator chars =
      some ([.node (.connective operator) lexeme [], .node operator.operand text inner], rest) :=
    run_append_eq_some_iff.mpr ⟨_, middle, _, takenOperator, takenOperand, rfl⟩
  rw [AcceptsMore, again, taken]
  refine ⟨?_, splits, by simp only; omega⟩
  simp only [List.cons_append, List.nil_append]
  rw [readOperands_connective, readOperands_operand, reads, readsMore]
  rfl

theorem complete_chain {first : Derivation (.operand operator)} {more : Derivation (.more operator)}
    (completeFirst : Complete first) (completeMore : Complete more) :
    Complete (.chain first more) := by
  intro depth chars behind splits ends deep
  rw [rank_chain] at deep
  rw [Derivation.tokens, List.append_assoc] at splits
  obtain ⟨depth, rfl⟩ : ∃ lower, depth = lower + 1 := ⟨depth - 1, by omega⟩
  obtain ⟨text, inner, middle, takenFirst, reads, splits, less⟩ :=
    completeFirst depth chars _ splits (more.ends_more ends) (by omega)
  have enough : more.tokens.length ≤ (grammar.skip middle).length + 1 := by
    have length := (splits_skip_iff.mpr splits).length_le
    rw [List.length_append] at length
    omega
  obtain ⟨readsMore, splits, le⟩ :=
    completeMore depth _ middle behind splits ends (by rw [rank_more]; omega) enough
  obtain ⟨rest, takenMore, leaves⟩ := run_many_skip (grammar.parse depth) grammar.skip
    (Peg.call (.connective operator) ++ Peg.call operator.operand) middle
  have takenOperand : (Peg.call operator.operand).run (grammar.parse depth) grammar.skip
      (grammar.skip chars) = some ([.node operator.operand text inner], middle) := takenFirst
  have takenBody := run_append_eq_some_iff.mpr ⟨_, middle, _, takenOperand, takenMore, rfl⟩
  refine ⟨_, _, rest, (Grammar.parse_phrase_eq_some_iff rfl).mpr ⟨_, takenBody, rfl⟩, ?_, ?_, ?_⟩
  · rw [List.cons_append, List.nil_append, readChain, readOperands_operand, reads, readsMore]
    exact collapse_cons _ _ _
  · obtain rfl | rfl := leaves
    · exact splits
    · exact splits_skip_iff.mpr splits
  · obtain rfl | rfl := leaves
    · exact Nat.lt_of_le_of_lt le less
    · exact Nat.lt_of_le_of_lt (Nat.le_trans (length_skip_le _) le) less

theorem complete_disjunct {operand : Derivation (.chain .and)} (complete : Complete operand) :
    Complete (.disjunct operand) := complete

end Chains

/-! ### Negations -/

theorem repeat_negation (count : Nat) (value : Expression) :
    Nat.repeat Expression.negation (count + 1) value =
      Nat.repeat Expression.negation count (.negation value) := by
  induction count with
  | zero => rfl
  | succ count hypothesis => rw [Nat.repeat, hypothesis, Nat.repeat]

theorem complete_plain {operand : Derivation .comparison} (complete : Complete operand) :
    Complete (.plain operand) := by
  intro depth rounds chars more splits ends deep enough
  rw [Derivation.tokens] at splits
  have stops : anotherNot depth chars = none := by
    refine parse_token_none rfl fun token rest leads isRule => ?_
    obtain ⟨first, others, same, different⟩ := operand.comparison_tokens
    rw [same] at splits
    obtain ⟨_, leads', -⟩ := splits_cons_iff.mp splits
    obtain ⟨rfl, -⟩ : first = token ∧ _ := by simpa [leads'] using leads
    exact different (eq_not_of_rule? isRule)
  have nothing : again (anotherNot depth) rounds chars =
      ([], chars) := by
    cases rounds with
    | zero => rfl
    | succ rounds => rw [again, stops]
  obtain ⟨text, inner, rest, taken, reads, splits, less⟩ :=
    complete depth chars more splits ends deep
  refine ⟨[], chars, text, inner, rest, nothing, taken, fun before => ?_, splits, less⟩
  rw [List.nil_append, readNegations_comparison, reads]
  rfl

theorem complete_negated {operand : Derivation .negation} (complete : Complete operand) :
    Complete (.negated operand) := by
  intro depth rounds chars more splits ends deep enough
  rw [Derivation.tokens, List.cons_append] at splits
  obtain ⟨middle, leads, splits⟩ := splits_cons_iff.mp splits
  have shorter := length_of_lead? leads
  have skipped := length_skip_le chars
  obtain ⟨lexeme, -, takenNot⟩ := parse_token_some rfl rfl leads (show 0 < depth by omega)
  obtain ⟨rounds, rfl, enoughRest⟩ :
      ∃ fewer, rounds = fewer + 1 ∧ operand.tokens.length ≤ fewer := by
    rw [Derivation.tokens, List.length_cons] at enough
    exact ⟨rounds - 1, by omega, by omega⟩
  obtain ⟨nots, behind, text, inner, rest, goes, taken, reads, splits, less⟩ :=
    complete depth rounds middle more splits ends (by omega) enoughRest
  have takenRound : anotherNot depth chars =
      some ([.node .not lexeme []], middle) := takenNot
  refine ⟨.node .not lexeme [] :: nots, behind, text, inner, rest, ?_, taken, fun before => ?_,
    splits, by omega⟩
  · rw [again, takenRound]
    simp only [goes, List.cons_append, List.nil_append]
  · rw [List.cons_append, readNegations_not, reads, Derivation.meaning, repeat_negation]

theorem complete_conjunct {operand : Derivation .negation} (complete : Complete operand) :
    Complete (.conjunct operand) := by
  intro depth chars more splits ends deep
  obtain ⟨depth, rfl⟩ : ∃ lower, depth = lower + 1 :=
    ⟨depth - 1, by simp only [Category.rank] at deep; omega⟩
  have enough : operand.tokens.length ≤ (grammar.skip chars).length + 1 := by
    have length := (splits_skip_iff.mpr splits).length_le
    rw [List.length_append, Derivation.tokens] at length
    omega
  obtain ⟨nots, middle, text, inner, rest, goes, taken, reads, splits, less⟩ :=
    complete depth _ chars more splits ends (by simp only [Category.rank] at deep ⊢; omega) enough
  obtain ⟨leaves, takenNots, same⟩ := run_many_skip (grammar.parse depth) grammar.skip
    (Peg.call .not) chars
  rw [goes] at takenNots same
  have takenComparison : (Peg.call .comparison).run (grammar.parse depth) grammar.skip
      (grammar.skip leaves) = some ([.node .comparison text inner], rest) := by
    obtain rfl | rfl := same
    · exact taken
    · rw [skip_skip]
      exact taken
  have takenBody := run_append_eq_some_iff.mpr ⟨_, leaves, _, takenNots, takenComparison, rfl⟩
  exact ⟨_, _, rest, (Grammar.parse_phrase_eq_some_iff rfl).mpr ⟨_, takenBody, rfl⟩, reads 0, splits,
    less⟩

/-! ### Comparisons -/

theorem complete_single {operand : Derivation .primary} (complete : Complete operand) :
    Complete (.single operand) := by
  intro depth chars more splits ends deep
  obtain ⟨depth, rfl⟩ : ∃ lower, depth = lower + 1 :=
    ⟨depth - 1, by simp only [Category.rank] at deep; omega⟩
  obtain ⟨tree, rest, taken, reads, splits, less⟩ := complete depth chars more splits
    (ends.weaken (by decide)) (by simp only [Category.rank] at deep ⊢; omega)
  have noRelation : grammar.parse depth .relation (grammar.skip rest) = none := by
    refine parse_token_none rfl fun token _ leads isRule => ?_
    obtain ⟨relation, rfl⟩ := eq_comparison_of_rule? isRule
    exact absurd (binding_lt_of_ends splits ends leads) (Nat.lt_irrefl _)
  have takenNothing : (maybe (Peg.call .relation ++ anyPrimary)).run (grammar.parse depth)
      grammar.skip (grammar.skip rest) = some ([], grammar.skip rest) :=
    run_maybe_eq_some_iff.mpr (.inr ⟨run_append_eq_none noRelation, rfl, rfl⟩)
  have takenBody := run_append_eq_some_iff.mpr ⟨_, rest, _, taken, takenNothing, rfl⟩
  refine ⟨_, _, _, (Grammar.parse_phrase_eq_some_iff rfl).mpr ⟨_, takenBody, rfl⟩, ?_,
    splits_skip_iff.mpr splits, Nat.lt_of_le_of_lt (length_skip_le _) less⟩
  rw [List.append_nil, readComparison, reads]
  rfl

theorem complete_compared {relation : Comparison} {left right : Derivation .primary}
    (completeLeft : Complete left) (completeRight : Complete right) :
    Complete (.compared relation left right) := by
  intro depth chars more splits ends deep
  obtain ⟨depth, rfl⟩ : ∃ lower, depth = lower + 1 :=
    ⟨depth - 1, by simp only [Category.rank] at deep; omega⟩
  rw [Derivation.tokens, List.append_assoc, List.cons_append] at splits
  simp only [Category.rank] at deep
  obtain ⟨leftTree, middle, takenLeft, readsLeft, splits, less⟩ := completeLeft depth chars _ splits
    (Nat.lt_succ_self _) (by simp only [Category.rank]; omega)
  obtain ⟨behind, leads, splits⟩ := splits_cons_iff.mp splits
  have shorter := length_of_lead? leads
  have skipped := length_skip_le middle
  obtain ⟨lexeme, spells, takenRelation⟩ := parse_token_some rfl rfl leads (show 0 < depth by omega)
  obtain ⟨rightTree, rest, takenRight, readsRight, splits, lessRight⟩ :=
    completeRight depth behind more splits (ends.weaken (by decide))
      (by simp only [Category.rank]; omega)
  have takenMore : (maybe (Peg.call .relation ++ anyPrimary)).run (grammar.parse depth)
      grammar.skip (grammar.skip middle) = some ([.node .relation lexeme [], rightTree], rest) :=
    run_maybe_eq_some_iff.mpr
      (.inl (run_append_eq_some_iff.mpr ⟨_, behind, _, takenRelation, takenRight, rfl⟩))
  have takenBody := run_append_eq_some_iff.mpr ⟨_, middle, _, takenLeft, takenMore, rfl⟩
  refine ⟨_, _, rest, (Grammar.parse_phrase_eq_some_iff rfl).mpr ⟨_, takenBody, rfl⟩, ?_, splits,
    by omega⟩
  rw [List.cons_append, List.nil_append, readComparison, readsLeft]
  simp only [ParseTree.text, bind, Except.bind]
  rw [readRelation_of_spells spells rfl, readsRight]
  rfl

/-! ### Primaries -/

section Primaries

variable {chars rest : List Char} {token : Token} {depth : Nat}

/-- Nothing is called without an opening bracket behind the name. -/
theorem parse_call_none
    (noCall : ∀ word rest, lead? chars = some (.name word, rest) →
      ∀ behind, lead? (grammar.skip rest) ≠ some (.opening, behind)) :
    grammar.parse depth .call chars = none := by
  rw [Option.eq_none_iff_forall_ne_some]
  rintro ⟨trees, rest⟩ taken
  cases depth with
  | zero => exact absurd taken (by simp [Grammar.parse])
  | succ depth =>
    obtain ⟨_, takenBody, -⟩ := (Grammar.parse_phrase_eq_some_iff rfl).mp taken
    obtain ⟨_, _, _, takenFront, -⟩ := run_append_eq_some_iff.mp takenBody
    obtain ⟨_, _, _, takenHead, -⟩ := run_append_eq_some_iff.mp takenFront
    obtain ⟨_, _, _, takenName, takenOpening, -⟩ := run_append_eq_some_iff.mp takenHead
    obtain ⟨token, _, leads, isRule, -⟩ := parse_token_eq_some rfl takenName
    obtain ⟨word, rfl⟩ := eq_name_of_rule? isRule
    exact noCall word _ leads _ (run_opening_iff.mp takenOpening).1

/-- A token that is a primary is taken where it is not called. -/
theorem run_anyPrimary_token {rule : Rule} (isRule : token.rule? = some rule)
    (isLiteral : rule.IsLiteral) (leads : lead? chars = some (token, rest)) (deep : 0 < depth)
    (noCall : ∀ behind, lead? (grammar.skip rest) ≠ some (.opening, behind)) :
    ∃ lexeme, Spells token lexeme ∧ anyPrimary.run (grammar.parse depth) grammar.skip chars =
      some ([.node rule lexeme []], rest) := by
  have other (rule' : Rule) {pattern : Peg Empty} (body : bodyOf rule' = .token pattern)
      (different : rule ≠ rule') : grammar.parse depth rule' chars = none := by
    refine parse_token_none body fun token' _ leads' isRule' => ?_
    obtain ⟨rfl, -⟩ : token = token' ∧ _ := by simpa [leads] using leads'
    exact different (Option.some.inj (isRule.symm.trans isRule'))
  have calls : grammar.parse depth .call chars = none := by
    refine parse_call_none fun word rest' leads' => ?_
    obtain ⟨-, rfl⟩ : token = .name word ∧ rest = rest' := by simpa [leads] using leads'
    exact noCall
  obtain ⟨pattern, body⟩ : ∃ pattern, bodyOf rule = .token pattern := by
    rcases isLiteral with rfl | rfl | rfl | rfl | rfl <;> exact ⟨_, rfl⟩
  obtain ⟨lexeme, spells, taken⟩ := parse_token_some body isRule leads deep
  refine ⟨lexeme, spells, ?_⟩
  simp only [anyPrimary, anyLiteral, run_orElse, run_call, calls]
  rcases isLiteral with rfl | rfl | rfl | rfl | rfl
  · simp [taken]
  · simp [taken, other .text rfl]
  · simp [taken, other .text rfl, other .integer rfl]
  · simp [taken, other .text rfl, other .integer rfl, other .boolean rfl]
  · simp [taken, other .text rfl, other .integer rfl, other .boolean rfl, other .null rfl]

/-- A token that is a primary is accepted. -/
theorem complete_token {phrase : Derivation .primary} {rule : Rule}
    (isToken : phrase.tokens = [token]) (isRule : token.rule? = some rule)
    (isLiteral : rule.IsLiteral) : Complete phrase := by
  intro depth chars more splits ends deep
  simp only [Category.rank] at deep
  rw [isToken, List.cons_append, List.nil_append] at splits
  obtain ⟨rest, leads, splits⟩ := splits_cons_iff.mp splits
  have noCall (behind : List Char) : lead? (grammar.skip rest) ≠ some (.opening, behind) :=
    fun opens => absurd (binding_lt_of_ends splits ends opens) (Nat.lt_irrefl _)
  obtain ⟨lexeme, spells, taken⟩ :=
    run_anyPrimary_token isRule isLiteral leads (show 0 < depth by omega) noCall
  exact ⟨_, rest, taken, (readPrimary_token_iff spells isRule isLiteral).mpr ⟨phrase, isToken, rfl⟩,
    splits, Nat.lt_of_lt_of_le (length_of_lead? leads) (length_skip_le chars)⟩

/-- A token of no literal rule leaves the literals aside. -/
theorem run_anyLiteral_none (depth : Nat) (leads : lead? chars = some (token, rest))
    (noLiteral : ∀ rule, token.rule? = some rule → rule.IsLiteral → rule = .identifier) :
    anyLiteral.run (grammar.parse depth) grammar.skip chars = none := by
  have other (rule : Rule) {pattern : Peg Empty} (body : bodyOf rule = .token pattern)
      (isLiteral : rule.IsLiteral) (different : rule ≠ .identifier) :
      grammar.parse depth rule chars = none := by
    refine parse_token_none body fun token' _ leads' isRule => ?_
    obtain ⟨rfl, -⟩ : token = token' ∧ _ := by simpa [leads] using leads'
    exact different (noLiteral rule isRule isLiteral)
  simp only [anyLiteral, run_orElse, run_call,
    other .text rfl (by simp [Rule.IsLiteral]) (by decide),
    other .integer rfl (by simp [Rule.IsLiteral]) (by decide),
    other .boolean rfl (by simp [Rule.IsLiteral]) (by decide),
    other .null rfl (by simp [Rule.IsLiteral]) (by decide), Option.or_none]

theorem complete_bracketed {inner : Derivation (.chain .or)} (complete : Complete inner) :
    Complete (.bracketed inner) := by
  intro depth chars more splits ends deep
  simp only [Category.rank] at deep
  rw [Derivation.tokens, List.cons_append, List.append_assoc, List.cons_append,
    List.nil_append] at splits
  obtain ⟨middle, opens, splits⟩ := splits_cons_iff.mp splits
  have shorter := length_of_lead? opens
  have skipped := length_skip_le chars
  obtain ⟨text, trees, behind, taken, reads, splits, less⟩ := complete depth middle _ splits
    (Category.ends_of_binding_eq_zero _ rfl _) (by simp only [Category.rank]; omega)
  obtain ⟨rest, closes, splits⟩ := splits_cons_iff.mp splits
  have lessRest := length_of_lead? closes
  have skippedRest := length_skip_le behind
  have literals := run_anyLiteral_none depth opens (by simp [rule?])
  have calls : grammar.parse depth .call (grammar.skip chars) = none :=
    parse_call_none fun word _ leads => by simp [opens] at leads
  have identifiers : grammar.parse depth .identifier (grammar.skip chars) = none :=
    parse_token_none rfl fun token _ leads isRule => by
      obtain ⟨rfl, -⟩ : Token.opening = token ∧ _ := by simpa [opens] using leads
      exact absurd isRule (by simp [rule?])
  have takenBracketed :
      (Peg.text "(" ++ Peg.call (Rule.chain .or) ++ Peg.text ")").run (grammar.parse depth)
        grammar.skip (grammar.skip chars) = some ([.node (.chain .or) text trees], rest) :=
    run_append_eq_some_iff.mpr ⟨_, behind, _, run_append_eq_some_iff.mpr
      ⟨_, middle, _, run_opening_iff.mpr ⟨opens, rfl⟩, taken, rfl⟩,
      run_closing_iff.mpr ⟨closes, rfl⟩, rfl⟩
  refine ⟨.node (.chain .or) text trees, rest, ?_, ?_, splits, by omega⟩
  · simp only [anyPrimary, run_orElse, run_call, literals, calls, identifiers, Option.none_or]
    exact takenBracketed
  · rw [readPrimary]
    exact reads

/-- A call of one argument. -/
theorem parse_call_some {name opened behind : List Char} {word : String} {text : List Char}
    {inner : List (ParseTree Rule)} {closed : List Char}
    (leads : lead? chars = some (.name word, name))
    (opens : lead? (grammar.skip name) = some (.opening, opened))
    (taken : grammar.parse (depth + 1) (.chain .or) (grammar.skip opened) =
      some ([.node (.chain .or) text inner], behind))
    (closes : lead? (grammar.skip behind) = some (.closing, closed)) :
    ∃ callText lexeme, Spells (.name word) lexeme ∧
      grammar.parse (depth + 2) .call chars = some ([.node .call callText
        [.node .identifier lexeme [], .node (.chain .or) text inner]], closed) := by
  obtain ⟨lexeme, spells, takenName⟩ := parse_token_some rfl rfl leads (Nat.succ_pos depth)
  refine ⟨_, lexeme, spells, (Grammar.parse_phrase_eq_some_iff rfl).mpr ⟨_, ?_, rfl⟩⟩
  have noComma : (Peg.text "," ++ Peg.call (Rule.chain .or)).run (grammar.parse (depth + 1))
      grammar.skip (grammar.skip behind) = none := by
    refine run_append_eq_none (Option.eq_none_iff_forall_ne_some.mpr ?_)
    rintro ⟨trees, rest⟩ takenComma
    have comma := (run_comma_iff.mp takenComma).1
    simp [closes] at comma
  have takenMany : (many (Peg.text "," ++ Peg.call (Rule.chain .or))).run (grammar.parse (depth + 1))
      grammar.skip (grammar.skip behind) = some ([], grammar.skip behind) := by
    exact run_many_of_none noComma
  have takenArguments : (maybe someArguments).run (grammar.parse (depth + 1)) grammar.skip
      (grammar.skip opened) = some ([.node (.chain .or) text inner], grammar.skip behind) :=
    run_maybe_eq_some_iff.mpr
      (.inl (run_append_eq_some_iff.mpr ⟨_, behind, _, taken, takenMany, rfl⟩))
  have takenHead : (Peg.call Rule.identifier ++ Peg.text "(").run (grammar.parse (depth + 1))
      grammar.skip chars = some ([.node .identifier lexeme []], opened) :=
    run_append_eq_some_iff.mpr ⟨_, name, _, takenName, run_opening_iff.mpr ⟨opens, rfl⟩, rfl⟩
  have takenClosing : (Peg.text ")").run (grammar.parse (depth + 1)) grammar.skip
      (grammar.skip (grammar.skip behind)) = some ([], closed) :=
    run_closing_iff.mpr ⟨by rw [skip_skip, closes], rfl⟩
  exact run_append_eq_some_iff.mpr ⟨_, _, _, run_append_eq_some_iff.mpr
    ⟨_, opened, _, takenHead, takenArguments, rfl⟩, takenClosing, rfl⟩

theorem complete_group {argument : Derivation .argument} (complete : Complete argument) :
    Complete (.group argument) := by
  intro depth chars more splits ends deep
  simp only [Category.rank] at deep
  rw [Derivation.tokens, List.cons_append, List.cons_append, List.append_assoc, List.cons_append,
    List.nil_append] at splits
  obtain ⟨name, leads, splits⟩ := splits_cons_iff.mp splits
  obtain ⟨opened, opens, splits⟩ := splits_cons_iff.mp splits
  have shorter := length_of_lead? leads
  have skipped := length_skip_le chars
  have shorterName := length_of_lead? opens
  have skippedName := length_skip_le name
  obtain ⟨depth, rfl⟩ : ∃ lower, depth = lower + 2 := ⟨depth - 2, by omega⟩
  obtain ⟨text, inner, behind, taken, reads, splits, less⟩ := complete (depth + 1) opened _ splits
    (Category.ends_of_binding_eq_zero _ rfl _) (by simp only [Category.rank]; omega)
  obtain ⟨closed, closes, splits⟩ := splits_cons_iff.mp splits
  have lessClosed := length_of_lead? closes
  have skippedClosed := length_skip_le behind
  obtain ⟨callText, lexeme, spells, takenCall⟩ := parse_call_some leads opens taken closes
  have literals := run_anyLiteral_none (depth + 2) leads (by simp [rule?])
  have takenPrimary : anyPrimary.run (grammar.parse (depth + 2)) grammar.skip (grammar.skip chars) =
      some ([.node .call callText
        [.node .identifier lexeme [], .node (.chain .or) text inner]], closed) := by
    simp only [anyPrimary, run_orElse, run_call, literals, takenCall, Option.none_or,
      Option.some_or]
  refine ⟨_, closed, takenPrimary, ?_, splits, by omega⟩
  have readsChain : readOperands .or inner >>= Connective.or.collapse = _ := reads
  rw [readPrimary, readCall, ofList_of_spells spells rfl, if_pos (by decide), readArguments,
    readArguments, readsChain]
  rfl

end Primaries

/-! ### Arguments -/

/-- A primary is accepted as a whole expression. -/
theorem complete_whole {operand : Derivation .primary} (complete : Complete operand) :
    Complete operand.whole :=
  complete_chain (complete_disjunct (complete_chain (complete_conjunct
    (complete_plain (complete_single complete))) complete_done)) complete_done

/-- An argument is accepted as the whole expression that it is. -/
theorem complete_argument_iff {argument : Derivation .argument} :
    Complete argument ↔ Complete argument.ofArgument := by
  simp only [Complete, argument.tokens_ofArgument, argument.meaning_ofArgument]

theorem complete_quoted (value : String) : Complete (.quoted value) := by
  rw [complete_argument_iff, Derivation.ofArgument]
  exact complete_whole (complete_token rfl rfl (.inl rfl))

theorem complete_enclosed {inner : Derivation .argument} (complete : Complete inner) :
    Complete (.enclosed inner) := by
  rw [complete_argument_iff] at complete ⊢
  rw [Derivation.ofArgument]
  exact complete_whole (complete_bracketed complete)

/-- **Every phrase is accepted** and read as what it stands for. -/
theorem complete {category : Category} (phrase : Derivation category) : Complete phrase := by
  induction phrase with
  | chain _ _ first more => exact complete_chain first more
  | done => exact complete_done
  | another _ _ operand more => exact complete_another operand more
  | disjunct _ operand => exact complete_disjunct operand
  | conjunct _ operand => exact complete_conjunct operand
  | negated _ operand => exact complete_negated operand
  | plain _ operand => exact complete_plain operand
  | single _ operand => exact complete_single operand
  | compared _ _ _ left right => exact complete_compared left right
  | text => exact complete_token rfl rfl (.inl rfl)
  | integer => exact complete_token rfl rfl (.inr (.inl rfl))
  | boolean => exact complete_token rfl rfl (.inr (.inr (.inl rfl)))
  | null => exact complete_token rfl rfl (.inr (.inr (.inr (.inl rfl))))
  | name => exact complete_token rfl rfl (.inr (.inr (.inr (.inr rfl))))
  | group _ argument => exact complete_group argument
  | bracketed _ inner => exact complete_bracketed inner
  | quoted value => exact complete_quoted value
  | enclosed _ inner => exact complete_enclosed inner

end BookingAccess.Expression
