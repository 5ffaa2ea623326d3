/-
**What is accepted is derived.**

Where a rule of the grammar takes a beginning of a text, and its tree is read as an expression, the
tokens of that beginning derive the expression. The proof is by induction on the depth: each rule
is sound if the rules that it calls are (`SoundAt.succ`).

* `Covers`: the tokens of a text up to a rest of it;
* `soundAt`: every rule of phrases, at every depth.
-/

import BookingAccess.Proofs.Expression.Reading

namespace BookingAccess.Expression

open Peg Token

/-- The text starts with the tokens and leaves the rest. -/
def Covers (chars : List Char) (tokens : List Token) (rest : List Char) : Prop :=
  ∀ more, Splits rest more → Splits chars (tokens ++ more)

namespace Covers

variable {chars middle rest : List Char} {tokens others : List Token}

theorem of_skip_eq (same : grammar.skip chars = grammar.skip rest) : Covers chars [] rest :=
  fun more splits => by rwa [List.nil_append, ← splits_skip_iff, same, splits_skip_iff]

theorem append (front : Covers chars tokens middle) (back : Covers middle others rest) :
    Covers chars (tokens ++ others) rest := fun more splits => by
  rw [List.append_assoc]
  exact front _ (back _ splits)

theorem token {token : Token} (leads : lead? chars = some (token, rest)) :
    Covers chars [token] rest := fun _ splits => .token (lead?_eq_some_iff.mp leads) splits

theorem cons {token : Token} (leads : lead? chars = some (token, middle))
    (back : Covers middle others rest) : Covers chars (token :: others) rest :=
  (Covers.token leads).append back

@[simp] theorem skip_iff : Covers (grammar.skip chars) tokens rest ↔ Covers chars tokens rest :=
  forall_congr' fun _ => imp_congr_right fun _ => splits_skip_iff

theorem congr_rest {rest' : List Char} (covers : Covers chars tokens rest)
    (same : grammar.skip rest = grammar.skip rest') : Covers chars tokens rest' := by
  have whole := covers.append (of_skip_eq same)
  rwa [List.append_nil] at whole

end Covers

theorem bind_eq_ok {α β : Type} {first : Except ExpressionError α}
    {second : α → Except ExpressionError β} {value : β} :
    first >>= second = .ok value ↔ ∃ middle, first = .ok middle ∧ second middle = .ok value := by
  cases first with
  | error => simp [bind, Except.bind]
  | ok => simp [bind, Except.bind]

/-- What the parser takes and the reader reads is derived. -/
def Sound (category : Category) (parser : Parser Rule)
    (read : List (ParseTree Rule) → Except ExpressionError category.Meaning) : Prop :=
  ∀ chars trees rest value, parser chars = some (trees, rest) → read trees = .ok value →
    ∃ phrase : Derivation category, phrase.meaning = value ∧ Covers chars phrase.tokens rest

/-- A rule is sound if its trees, read so, are. -/
def SoundRule (depth : Nat) (rule : Rule) (category : Category)
    (read : List (ParseTree Rule) → Except ExpressionError category.Meaning) : Prop :=
  ∀ chars text inner rest value,
    grammar.parse depth rule chars = some ([.node rule text inner], rest) → read inner = .ok value →
    ∃ phrase : Derivation category, phrase.meaning = value ∧ Covers chars phrase.tokens rest

/-- A rule is sound where its body is. -/
theorem SoundRule.of_body {depth : Nat} {rule : Rule} {category : Category} {pattern : Peg Rule}
    {read : List (ParseTree Rule) → Except ExpressionError category.Meaning}
    (body : bodyOf rule = .phrase pattern)
    (sound : Sound category (pattern.run (grammar.parse depth) grammar.skip) read) :
    SoundRule (depth + 1) rule category read := by
  intro chars text inner rest value taken reads
  obtain ⟨inner', takenInner, same⟩ := (Grammar.parse_phrase_eq_some_iff body).mp taken
  obtain ⟨-, rfl⟩ : text = _ ∧ inner = inner' := by simpa using same
  exact sound chars inner rest value takenInner reads

/-- The rules that stand for phrases are sound at this depth. -/
structure SoundAt (depth : Nat) : Prop where
  chain : ∀ operator, SoundRule depth (.chain operator) (.chain operator) (readChain operator)
  negation : SoundRule depth .negation .negation (readNegations 0 none)
  comparison : SoundRule depth .comparison .comparison readComparison
  call : SoundRule depth .call .primary readCall

namespace SoundAt

variable {depth : Nat}

theorem operand (sound : SoundAt depth) (operator : Connective) :
    SoundRule depth operator.operand (.operand operator) (readOperand operator) := by
  cases operator with
  | or =>
    intro chars text inner rest value taken reads
    obtain ⟨phrase, rfl, covers⟩ := sound.chain .and chars text inner rest value taken reads
    exact ⟨.disjunct phrase, rfl, covers⟩
  | and =>
    intro chars text inner rest value taken reads
    obtain ⟨phrase, rfl, covers⟩ := sound.negation chars text inner rest value taken reads
    exact ⟨.conjunct phrase, rfl, covers⟩

theorem more (sound : SoundAt depth) (operator : Connective) (rounds : Nat) :
    ∀ chars values,
      readOperands operator (again (another depth operator) rounds chars).1 = .ok values →
      ∃ phrase : Derivation (.more operator), phrase.meaning = values ∧
        Covers chars phrase.tokens (again (another depth operator) rounds chars).2 := by
  induction rounds with
  | zero =>
    intro chars values reads
    cases reads
    exact ⟨.done, rfl, .of_skip_eq rfl⟩
  | succ rounds hypothesis =>
    intro chars values reads
    rw [again] at reads ⊢
    cases taken : another depth operator chars with
    | none =>
      simp only [taken] at reads ⊢
      cases reads
      exact ⟨.done, rfl, .of_skip_eq rfl⟩
    | some found =>
      obtain ⟨trees, rest⟩ := found
      obtain ⟨front, middle, back, takenOperator, takenOperand, rfl⟩ :=
        run_append_eq_some_iff.mp taken
      obtain ⟨token, lexeme, leads, isRule, -, -, rfl⟩ := parse_token_eq_some rfl takenOperator
      obtain ⟨text, inner, rfl⟩ := Grammar.parse_eq_some takenOperand
      simp only [taken] at reads ⊢
      simp only [List.cons_append, List.nil_append] at reads
      rw [readOperands_connective, readOperands_operand] at reads
      obtain ⟨value, readsOperand, reads⟩ := bind_eq_ok.mp reads
      obtain ⟨values, readsMore, reads⟩ := bind_eq_ok.mp reads
      cases reads
      obtain ⟨operand, rfl, covers⟩ := sound.operand operator _ _ _ _ _ takenOperand readsOperand
      obtain ⟨more, rfl, coversMore⟩ := hypothesis _ _ readsMore
      obtain rfl := eq_connective_of_rule? isRule
      exact ⟨.another operand more, rfl,
        Covers.skip_iff.mp (.cons leads ((Covers.skip_iff.mp covers).append coversMore))⟩

theorem succ_chain (sound : SoundAt depth) (operator : Connective) :
    SoundRule (depth + 1) (.chain operator) (.chain operator) (readChain operator) := by
  refine .of_body rfl fun chars trees rest value taken reads => ?_
  obtain ⟨front, middle, back, takenFirst, takenMore, rfl⟩ := run_append_eq_some_iff.mp taken
  obtain ⟨text, inner, rfl⟩ := Grammar.parse_eq_some takenFirst
  obtain ⟨rfl, same⟩ := again_of_run_many skip_skip takenMore
  obtain ⟨values, reads, collapses⟩ := bind_eq_ok.mp reads
  rw [List.cons_append, List.nil_append, readOperands_operand] at reads
  obtain ⟨firstValue, readsFirst, reads⟩ := bind_eq_ok.mp reads
  obtain ⟨moreValues, readsMore, reads⟩ := bind_eq_ok.mp reads
  cases reads
  obtain ⟨first, rfl, covers⟩ := sound.operand operator _ _ _ _ _ takenFirst readsFirst
  obtain ⟨more, rfl, coversMore⟩ := sound.more operator _ _ _ readsMore
  rw [collapse_cons] at collapses
  cases collapses
  exact ⟨.chain first more, rfl, covers.append (coversMore.congr_rest same.symm)⟩

/-- The trees are those of negations, which the text starts with. -/
def Negates (chars : List Char) (trees : List (ParseTree Rule)) (rest : List Char) : Prop :=
  ∃ count, Covers chars (List.replicate count .not) rest ∧
    ∀ before operand more, readNegations before operand (trees ++ more) =
      readNegations (before + count) operand more

theorem Negates.nothing (chars : List Char) : Negates chars [] chars :=
  ⟨0, .of_skip_eq rfl, fun _ _ _ => rfl⟩

theorem Negates.cons {chars middle rest : List Char} {first more : List (ParseTree Rule)}
    (taken : grammar.parse depth .not chars = some (first, middle))
    (negates : Negates middle more rest) : Negates chars (first ++ more) rest := by
  obtain ⟨token, lexeme, leads, isRule, -, -, rfl⟩ := parse_token_eq_some rfl taken
  obtain rfl := eq_not_of_rule? isRule
  obtain ⟨count, covers, reads⟩ := negates
  refine ⟨count + 1, .cons leads covers, fun before operand trees => ?_⟩
  simp only [List.cons_append, List.nil_append, readNegations_not, reads]
  rw [Nat.add_assoc, Nat.add_comm 1]

/-- Negations, with gaps before them. -/
theorem negates_again (depth rounds : Nat) (chars : List Char) :
    Negates chars (again (anotherNot depth) rounds chars).1
      (again (anotherNot depth) rounds chars).2 := by
  induction rounds generalizing chars with
  | zero => exact .nothing chars
  | succ rounds hypothesis =>
    rw [again]
    cases taken : anotherNot depth chars with
    | none => exact .nothing chars
    | some found =>
      obtain ⟨count, covers, reads⟩ := Negates.cons taken (hypothesis found.2)
      exact ⟨count, Covers.skip_iff.mp covers, reads⟩

theorem succ_negation (sound : SoundAt depth) :
    SoundRule (depth + 1) .negation .negation (readNegations 0 none) := by
  refine .of_body rfl fun chars trees rest value taken reads => ?_
  obtain ⟨front, middle, back, takenNots, takenOperand, rfl⟩ := run_append_eq_some_iff.mp taken
  obtain ⟨text, inner, rfl⟩ := Grammar.parse_eq_some takenOperand
  obtain ⟨count, covers, counts⟩ : Negates chars front middle := by
    obtain ⟨-, rfl, rfl⟩ | ⟨first, behind, takenFirst, rfl, rfl⟩ := run_many_eq_some takenNots
    · exact .nothing _
    · exact .cons takenFirst (negates_again depth chars.length behind)
  rw [counts, readNegations_comparison, Nat.zero_add] at reads
  obtain ⟨operandValue, readsOperand, reads⟩ := bind_eq_ok.mp reads
  cases reads
  obtain ⟨operand, rfl, coversOperand⟩ := sound.comparison _ _ _ _ _ takenOperand readsOperand
  refine ⟨.negate count (.plain operand), Derivation.meaning_negate _ _, ?_⟩
  rw [Derivation.tokens_negate]
  exact covers.append (Covers.skip_iff.mp coversOperand)

/-- A token that is a primary is sound. -/
theorem token {rule : Rule} {pattern : Peg Empty} (body : bodyOf rule = .token pattern)
    (isLiteral : rule.IsLiteral) {chars rest : List Char} {trees : List (ParseTree Rule)}
    (taken : grammar.parse depth rule chars = some (trees, rest)) :
    ∃ tree, trees = [tree] ∧ ∀ value, readPrimary tree = .ok value →
      ∃ phrase : Derivation .primary, phrase.meaning = value ∧ Covers chars phrase.tokens rest := by
  obtain ⟨token, lexeme, leads, isRule, spells, -, rfl⟩ := parse_token_eq_some body taken
  refine ⟨_, rfl, fun value reads => ?_⟩
  obtain ⟨phrase, same, means⟩ := (readPrimary_token_iff spells isRule isLiteral).mp reads
  exact ⟨phrase, means, same ▸ .token leads⟩

theorem primary (sound : SoundAt depth) {chars rest : List Char} {trees : List (ParseTree Rule)}
    (taken : anyPrimary.run (grammar.parse depth) grammar.skip chars = some (trees, rest)) :
    ∃ tree, trees = [tree] ∧ ∀ value, readPrimary tree = .ok value →
      ∃ phrase : Derivation .primary, phrase.meaning = value ∧ Covers chars phrase.tokens rest := by
  simp only [anyPrimary, anyLiteral, run_orElse_eq_some_iff] at taken
  obtain (text | ⟨-, integer | ⟨-, boolean | ⟨-, null⟩⟩⟩) |
    ⟨-, call | ⟨-, identifier | ⟨-, bracketed⟩⟩⟩ := taken
  · exact token rfl (.inl rfl) text
  · exact token rfl (.inr (.inl rfl)) integer
  · exact token rfl (.inr (.inr (.inl rfl))) boolean
  · exact token rfl (.inr (.inr (.inr (.inl rfl)))) null
  · obtain ⟨text, inner, rfl⟩ := Grammar.parse_eq_some call
    exact ⟨_, rfl, fun value reads => sound.call _ _ _ _ value call (by rwa [readPrimary] at reads)⟩
  · exact token rfl (.inr (.inr (.inr (.inr rfl)))) identifier
  · obtain ⟨_, middle, _, takenFront, takenClosing, rfl⟩ := run_append_eq_some_iff.mp bracketed
    obtain ⟨_, behind, _, takenOpening, takenInner, rfl⟩ := run_append_eq_some_iff.mp takenFront
    obtain ⟨opens, rfl⟩ := run_opening_iff.mp takenOpening
    obtain ⟨closes, rfl⟩ := run_closing_iff.mp takenClosing
    obtain ⟨text, inner, rfl⟩ := Grammar.parse_eq_some takenInner
    refine ⟨_, rfl, fun value reads => ?_⟩
    rw [readPrimary] at reads
    obtain ⟨phrase, rfl, covers⟩ := sound.chain .or _ _ _ _ value takenInner reads
    exact ⟨.bracketed phrase, rfl, .cons opens
      ((Covers.skip_iff.mp covers).append (Covers.skip_iff.mp (.token closes)))⟩

theorem succ_comparison (sound : SoundAt depth) :
    SoundRule (depth + 1) .comparison .comparison readComparison := by
  refine .of_body rfl fun chars trees rest value taken reads => ?_
  obtain ⟨front, middle, back, takenLeft, takenMore, rfl⟩ := run_append_eq_some_iff.mp taken
  obtain ⟨left, rfl, soundLeft⟩ := sound.primary takenLeft
  obtain more | ⟨-, rfl, rfl⟩ := run_maybe_eq_some_iff.mp takenMore
  · obtain ⟨operator, behind, trees, takenRelation, takenRight, rfl⟩ :=
      run_append_eq_some_iff.mp more
    obtain ⟨token, lexeme, leads, isRule, spells, -, rfl⟩ := parse_token_eq_some rfl takenRelation
    obtain ⟨right, rfl, soundRight⟩ := sound.primary takenRight
    obtain ⟨relation, rfl⟩ := eq_comparison_of_rule? isRule
    simp only [List.cons_append, List.nil_append] at reads
    rw [readComparison] at reads
    obtain ⟨leftValue, readsLeft, reads⟩ := bind_eq_ok.mp reads
    obtain ⟨relation', readsRelation, reads⟩ := bind_eq_ok.mp reads
    obtain ⟨rightValue, readsRight, reads⟩ := bind_eq_ok.mp reads
    cases reads
    obtain ⟨leftPhrase, rfl, coversLeft⟩ := soundLeft _ readsLeft
    obtain ⟨rightPhrase, rfl, coversRight⟩ := soundRight _ readsRight
    obtain rfl : relation = relation' := by
      simpa [ParseTree.text, readRelation_of_spells spells rfl] using readsRelation
    refine ⟨.compared relation leftPhrase rightPhrase, rfl, coversLeft.append ?_⟩
    exact Covers.skip_iff.mp (.cons leads (Covers.skip_iff.mp coversRight))
  · rw [List.append_nil, readComparison] at reads
    obtain ⟨phrase, rfl, covers⟩ := soundLeft _ reads
    exact ⟨.single phrase, rfl, covers.congr_rest (skip_skip _).symm⟩

theorem length_of_readArguments {trees : List (ParseTree Rule)} {values : List Expression}
    (reads : readArguments trees = .ok values) : values.length = trees.length := by
  induction trees generalizing values with
  | nil =>
    rw [readArguments] at reads
    cases reads
    rfl
  | cons tree trees hypothesis =>
    obtain ⟨rule, text, inner⟩ := tree
    rw [readArguments] at reads
    obtain ⟨value, -, reads⟩ := bind_eq_ok.mp reads
    obtain ⟨values, readsMore, reads⟩ := bind_eq_ok.mp reads
    cases reads
    rw [List.length_cons, hypothesis readsMore, List.length_cons]

theorem eq_of_groupOf {values : List Expression} {value : Expression}
    (groups : groupOf values = .ok value) :
    ∃ name, values = [.literal (.text name)] ∧ value = .group name := by
  unfold groupOf at groups
  split at groups
  · cases groups
    exact ⟨_, rfl, rfl⟩
  · cases groups

/-- A call is a group of one text, in brackets or not. -/
theorem succ_call (sound : SoundAt depth) : SoundRule (depth + 1) .call .primary readCall := by
  refine .of_body rfl fun chars trees rest value taken reads => ?_
  obtain ⟨_, middle, _, takenFront, takenClosing, rfl⟩ := run_append_eq_some_iff.mp taken
  obtain ⟨_, behind, arguments, takenHead, takenArguments, rfl⟩ :=
    run_append_eq_some_iff.mp takenFront
  obtain ⟨_, _, _, takenName, takenOpening, rfl⟩ := run_append_eq_some_iff.mp takenHead
  obtain ⟨token, lexeme, leads, isRule, spells, -, rfl⟩ := parse_token_eq_some rfl takenName
  obtain ⟨opens, rfl⟩ := run_opening_iff.mp takenOpening
  obtain ⟨closes, rfl⟩ := run_closing_iff.mp takenClosing
  obtain ⟨word, rfl⟩ := eq_name_of_rule? isRule
  simp only [List.append_nil, List.cons_append, List.nil_append] at reads
  rw [readCall, ofList_of_spells spells rfl] at reads
  by_cases isGroup : word = "group"
  · subst isGroup
    obtain ⟨values, readsArguments, groups⟩ := bind_eq_ok.mp reads
    obtain ⟨name, rfl, rfl⟩ := eq_of_groupOf groups
    have single : arguments.length = 1 := (length_of_readArguments readsArguments).symm
    obtain some | ⟨-, rfl, -⟩ := run_maybe_eq_some_iff.mp takenArguments
    · obtain ⟨_, ends, more, takenArgument, takenMore, rfl⟩ := run_append_eq_some_iff.mp some
      obtain ⟨text, inner, rfl⟩ := Grammar.parse_eq_some takenArgument
      obtain ⟨-, rfl, rfl⟩ | ⟨front, _, takenFirst, rfl, -⟩ := run_many_eq_some takenMore
      · rw [List.append_nil, readArguments] at readsArguments
        obtain ⟨value, readsArgument, rest⟩ := bind_eq_ok.mp readsArguments
        cases rest
        obtain ⟨phrase, means, covers⟩ := sound.chain .or _ _ _ _ _ takenArgument readsArgument
        obtain ⟨argument, rfl, same⟩ := phrase.exists_argument means
        refine ⟨.group argument, rfl, .cons leads (Covers.skip_iff.mp (.cons opens ?_))⟩
        rw [same]
        exact (Covers.skip_iff.mp covers).append
          (Covers.skip_iff.mp (Covers.skip_iff.mp (.token closes)))
      · obtain ⟨_, _, _, -, takenArgument, rfl⟩ := run_append_eq_some_iff.mp takenFirst
        obtain ⟨_, _, rfl⟩ := Grammar.parse_eq_some takenArgument
        simp at single
    · cases single
  · rw [if_neg (by simpa using isGroup)] at reads
    cases reads

theorem succ (sound : SoundAt depth) : SoundAt (depth + 1) :=
  ⟨sound.succ_chain, sound.succ_negation, sound.succ_comparison, sound.succ_call⟩

theorem zero : SoundAt 0 := by
  have none {rule : Rule} {category : Category}
      {read : List (ParseTree Rule) → Except ExpressionError category.Meaning} :
      SoundRule 0 rule category read :=
    fun _ _ _ _ _ taken => absurd taken (by simp [Grammar.parse])
  exact ⟨fun _ => none, none, none, none⟩

end SoundAt

/-- **Every phrase that the grammar takes and the reader reads is derived.** -/
theorem soundAt (depth : Nat) : SoundAt depth := by
  induction depth with
  | zero => exact .zero
  | succ depth sound => exact sound.succ

end BookingAccess.Expression
