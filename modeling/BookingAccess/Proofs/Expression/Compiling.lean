/-
**Which texts are policies.**

The compiler accepts a text exactly when its tokens are derived by the grammar of expressions, and
gives the expression that the derivation stands for.

* `splits_trim_nil_iff`: the texts without tokens are the blank ones;
* `ofText?_eq_ok_iff`: for texts;
* `compile_reads_grammar`: for policies, with what makes the result unique.
-/

import BookingAccess.Expression.Policy
import BookingAccess.Proofs.Expression.Sound
import BookingAccess.Proofs.Expression.Complete

namespace BookingAccess.Expression

open Peg Token

/-- The tokens of a whole text and its expression. -/
inductive Derives : List Token → Option Expression → Prop
  | nothing : Derives [] none
  | phrase (phrase : Derivation (.chain .or)) : Derives phrase.tokens (some phrase.meaning)

/-! ### Blank texts -/

theorem isBlank_of_isGap {c : Char} (gap : isGap c = true) : Text.isBlank c = true := by
  simp only [isGap, Bool.or_eq_true, beq_iff_eq] at gap
  rcases gap with ((rfl | rfl) | rfl) | rfl <;> decide

/-- What is left is empty exactly when every character is blank. -/
theorem trimChars_eq_nil_iff {chars : List Char} :
    Text.trimChars chars = [] ↔ ∀ c ∈ chars, Text.isBlank c = true := by
  simp only [Text.trimChars, List.reverse_eq_nil_iff, List.dropWhile_eq_nil_iff, List.mem_reverse]
  induction chars with
  | nil => rfl
  | cons c rest ih => by_cases blank : Text.isBlank c = true <;> simp [blank, ih]

/-- A text that is blank once it is trimmed is empty then. -/
theorem trimChars_eq_nil_of_blank {chars : List Char}
    (blank : ∀ c ∈ Text.trimChars chars, Text.isBlank c = true) : Text.trimChars chars = [] := by
  simp only [Text.trimChars, List.reverse_eq_nil_iff, List.mem_reverse] at blank ⊢
  rw [← List.dropWhile_idempotent]
  exact List.dropWhile_eq_nil_iff.mpr blank

/-- **A text has no tokens exactly when it is blank throughout.** -/
theorem splits_trim_nil_iff {source : String} :
    Splits (Text.trim source).toList [] ↔ ∀ c ∈ source.toList, Text.isBlank c = true := by
  have trimmed : (Text.trim source).toList = Text.trimChars source.toList := String.toList_ofList
  rw [splits_nil_iff, trimmed, ← trimChars_eq_nil_iff]
  constructor
  · intro gaps
    exact trimChars_eq_nil_of_blank fun c member =>
      isBlank_of_isGap (List.dropWhile_eq_nil_iff.mp gaps c member)
  · intro empty
    rw [empty]
    rfl

/-! ### Texts without tokens -/

theorem parse_phrase_none {rule : Rule} {pattern : Peg Rule} (body : bodyOf rule = .phrase pattern)
    {chars : List Char}
    (fails : ∀ depth, pattern.run (grammar.parse depth) grammar.skip chars = none) (depth : Nat) :
    grammar.parse depth rule chars = none := by
  rw [Option.eq_none_iff_forall_ne_some]
  rintro ⟨trees, rest⟩ taken
  cases depth with
  | zero => exact absurd taken (by simp [Grammar.parse])
  | succ depth =>
    obtain ⟨_, takenBody, -⟩ := (Grammar.parse_phrase_eq_some_iff body).mp taken
    exact absurd takenBody (by simp [fails])

/-- Nothing is taken of an empty text. -/
theorem parse_chain_nil (operator : Connective) (depth : Nat) :
    grammar.parse depth (.chain operator) [] = none := by
  have token (rule : Rule) {pattern : Peg Empty} (body : bodyOf rule = .token pattern)
      (depth : Nat) : grammar.parse depth rule [] = none :=
    parse_token_none body fun _ _ leads => by simp [lead?] at leads
  have call (depth : Nat) : grammar.parse depth .call [] = none :=
    parse_call_none fun _ _ leads => by simp [lead?] at leads
  have comparison : ∀ depth, grammar.parse depth .comparison [] = none := by
    refine parse_phrase_none rfl fun depth => run_append_eq_none ?_
    have bracketed : (Peg.text "(" ++ Peg.call (Rule.chain .or) ++ Peg.text ")").run
        (grammar.parse depth) grammar.skip [] = none :=
      run_append_eq_none (run_append_eq_none (by simp [Peg.run, List.isPrefixOf?]))
    simp only [anyPrimary, anyLiteral, run_orElse, run_call, token .text rfl, token .integer rfl,
      token .boolean rfl, token .null rfl, token .identifier rfl, call, bracketed, Option.none_or]
  have negation : ∀ depth, grammar.parse depth .negation [] = none := by
    refine parse_phrase_none rfl fun depth => ?_
    rw [Option.eq_none_iff_forall_ne_some]
    rintro ⟨trees, rest⟩ taken
    obtain ⟨_, _, _, takenNots, takenComparison, -⟩ := run_append_eq_some_iff.mp taken
    obtain ⟨-, -, rfl⟩ | ⟨_, _, takenNot, -, -⟩ := run_many_eq_some takenNots
    · rw [run_call, show grammar.skip [] = [] from rfl, comparison] at takenComparison
      cases takenComparison
    · rw [run_call, token .not rfl] at takenNot
      cases takenNot
  have conjunction : ∀ depth, grammar.parse depth (.chain .and) [] = none :=
    parse_phrase_none rfl fun depth => run_append_eq_none ((run_call _).trans (negation depth))
  cases operator with
  | and => exact conjunction depth
  | or =>
    exact parse_phrase_none rfl
      (fun depth => run_append_eq_none ((run_call _).trans (conjunction depth))) depth

/-! ### Whole texts -/

theorem run_finish_iff {chars rest : List Char} {trees : List (ParseTree Rule)} {depth : Nat} :
    finish.run (grammar.parse depth) grammar.skip chars = some (trees, rest) ↔
      chars = [] ∧ rest = [] ∧ trees = [] := by
  cases chars with
  | nil => simp [Peg.run, eq_comm, and_comm]
  | cons c chars => simp [Peg.run]

/-- The body of a whole text takes a chain up to the end, or only a gap. -/
theorem run_expression_iff {chars rest : List Char} {inner : List (ParseTree Rule)} {depth : Nat} :
    (nothing ++ maybe (Peg.call (Rule.chain .or)) ++ finish).run (grammar.parse depth) grammar.skip
        chars = some (inner, rest) ↔
      rest = [] ∧ ((∃ behind, grammar.parse depth (.chain .or) (grammar.skip chars) =
          some (inner, behind) ∧ grammar.skip behind = []) ∨
        grammar.skip chars = [] ∧ inner = []) := by
  have start : nothing.run (grammar.parse depth) grammar.skip chars = some ([], chars) := rfl
  constructor
  · intro taken
    obtain ⟨_, behind, _, takenFront, takenEnd, rfl⟩ := run_append_eq_some_iff.mp taken
    obtain ⟨_, _, _, takenStart, takenChain, rfl⟩ := run_append_eq_some_iff.mp takenFront
    obtain ⟨ends, rfl, rfl⟩ := run_finish_iff.mp takenEnd
    cases start.symm.trans takenStart
    rw [List.nil_append, List.append_nil]
    obtain takenChain | ⟨-, rfl, rfl⟩ := run_maybe_eq_some_iff.mp takenChain
    · exact ⟨rfl, .inl ⟨behind, takenChain, ends⟩⟩
    · exact ⟨rfl, .inr ⟨by rwa [skip_skip] at ends, rfl⟩⟩
  · rintro ⟨rfl, ⟨behind, takenChain, ends⟩ | ⟨empty, rfl⟩⟩
    · refine run_append_eq_some_iff.mpr ⟨inner, behind, [], run_append_eq_some_iff.mpr
        ⟨[], chars, inner, start, run_maybe_eq_some_iff.mpr (.inl takenChain), rfl⟩, ?_, by simp⟩
      exact run_finish_iff.mpr ⟨ends, rfl, rfl⟩
    · have noChain : (Peg.call (Rule.chain .or)).run (grammar.parse depth) grammar.skip
          (grammar.skip chars) = none := by rw [run_call, empty, parse_chain_nil]
      refine run_append_eq_some_iff.mpr ⟨[], _, [], run_append_eq_some_iff.mpr
        ⟨[], chars, [], start, run_maybe_eq_some_iff.mpr (.inr ⟨noChain, rfl, rfl⟩), rfl⟩, ?_, rfl⟩
      exact run_finish_iff.mpr ⟨by rw [skip_skip, empty], rfl, rfl⟩

/-- A whole text is a chain up to its end, or only a gap. -/
theorem parse?_eq_some_iff {chars : List Char} {tree : ParseTree Rule} :
    parse? chars = some tree ↔ ∃ inner, tree = .node .expression chars inner ∧
      ((∃ rest, grammar.parse (4 * chars.length + 5) (.chain .or) (grammar.skip chars) =
          some (inner, rest) ∧ grammar.skip rest = []) ∨
        grammar.skip chars = [] ∧ inner = []) := by
  constructor
  · intro parsed
    unfold parse? at parsed
    split at parsed
    · rename_i whole rest taken
      cases parsed
      obtain ⟨inner, takenBody, same⟩ := (Grammar.parse_phrase_eq_some_iff rfl).mp taken
      obtain ⟨rfl, parts⟩ := run_expression_iff.mp takenBody
      exact ⟨inner, by simpa using same, parts⟩
    · cases parsed
  · rintro ⟨inner, rfl, parts⟩
    have taken : grammar.parse (depthFor chars) .expression chars =
        some ([.node .expression chars inner], []) := by
      rw [depthFor, Grammar.parse_phrase_eq_some_iff rfl]
      exact ⟨inner, run_expression_iff.mpr ⟨rfl, parts⟩, by simp⟩
    unfold parse?
    rw [taken]

/-- **A text has an expression exactly when its tokens derive it.** -/
theorem ofText?_eq_ok_iff {source : String} {tree : Option Expression} :
    ofText? source = .ok tree ↔ ∃ tokens, Splits source.toList tokens ∧ Derives tokens tree := by
  constructor
  · intro reads
    unfold ofText? at reads
    split at reads
    · cases reads
    · rename_i whole parsed
      obtain ⟨inner, rfl, ⟨rest, taken, ends⟩ | ⟨empty, rfl⟩⟩ := parse?_eq_some_iff.mp parsed
      · obtain ⟨text, inner, rfl⟩ := Grammar.parse_eq_some taken
        simp only [ParseTree.inner, ParseTree.rule, List.find?_cons, decide_true] at reads
        obtain ⟨operands, readsOperands, reads⟩ := bind_eq_ok.mp reads
        obtain ⟨value, collapses, reads⟩ := bind_eq_ok.mp reads
        cases reads
        obtain ⟨phrase, rfl, covers⟩ := (soundAt _).chain .or _ _ _ _ _ taken
          (bind_eq_ok.mpr ⟨operands, readsOperands, collapses⟩)
        have splits := Covers.skip_iff.mp covers [] (splits_nil_iff.mpr ends)
        rw [List.append_nil] at splits
        exact ⟨_, splits, .phrase phrase⟩
      · cases reads
        exact ⟨[], splits_nil_iff.mpr empty, .nothing⟩
  · rintro ⟨tokens, splits, derives⟩
    cases derives with
    | nothing =>
      have parsed := parse?_eq_some_iff.mpr ⟨[], rfl, .inr ⟨splits_nil_iff.mp splits, rfl⟩⟩
      unfold ofText?
      rw [parsed]
      rfl
    | phrase phrase =>
      obtain ⟨text, inner, rest, taken, reads, ends, -⟩ :=
        complete phrase (4 * source.toList.length + 5) source.toList []
          (by rwa [List.append_nil]) trivial (Nat.le_refl _)
      have parsed := parse?_eq_some_iff.mpr ⟨_, rfl, .inl ⟨rest, taken, splits_nil_iff.mp ends⟩⟩
      obtain ⟨operands, readsOperands, collapses⟩ := bind_eq_ok.mp reads
      unfold ofText?
      rw [parsed]
      simp only [ParseTree.inner, ParseTree.rule, List.find?_cons, decide_true, readsOperands]
      exact bind_eq_ok.mpr ⟨operands, rfl, bind_eq_ok.mpr ⟨_, collapses, rfl⟩⟩

/-! ### Policies -/

theorem compile_eq_ok_iff {source : String} {policy : Policy} :
    Policy.compile (some source) = .ok policy ↔
      policy.source = Text.trim source ∧ ofText? (Text.trim source) = .ok policy.expression := by
  have compiled : Policy.compile (some source) =
      ofText? (Text.trim source) >>= fun tree => .ok ⟨Text.trim source, tree⟩ := rfl
  rw [compiled, bind_eq_ok]
  constructor
  · rintro ⟨tree, reads, same⟩
    cases same
    exact ⟨rfl, reads⟩
  · rintro ⟨same, reads⟩
    exact ⟨policy.expression, reads, by rw [← same]⟩

/-- A chain of two or more operands is derived, and stands for one flat expression. -/
theorem exists_chain {operator : Connective} (first second : Derivation (.operand operator))
    (others : List (Derivation (.operand operator))) :
    ∃ phrase : Derivation (.chain operator),
      phrase.tokens = first.tokens ++ ((second :: others).flatMap fun operand =>
        .connective operator :: operand.tokens) ∧
      phrase.meaning = operator.connect ((first :: second :: others).map Derivation.meaning) := by
  have exists_more (operands : List (Derivation (.operand operator))) :
      ∃ phrase : Derivation (.more operator),
        phrase.tokens = (operands.flatMap fun operand => .connective operator :: operand.tokens) ∧
        phrase.meaning = operands.map Derivation.meaning := by
    induction operands with
    | nil => exact ⟨.done, rfl, rfl⟩
    | cons operand operands hypothesis =>
      obtain ⟨phrase, tokens, meaning⟩ := hypothesis
      refine ⟨.another operand phrase, ?_, ?_⟩
      · simp [Derivation.tokens, tokens]
      · simp [Derivation.meaning, meaning]
  obtain ⟨more, tokens, meaning⟩ := exists_more (second :: others)
  refine ⟨.chain first more, by rw [Derivation.tokens, tokens], ?_⟩
  rw [Derivation.meaning, meaning]
  rfl

/-- **A text is a policy exactly when its tokens are derived**, and the policy is then the
expression of the only derivation: a text has one list of tokens, and these have one derivation. A
chain of one operator is one flat expression, and negations before an operand are nested. A text has
no tokens exactly when it is blank throughout, and is then a policy that holds for nobody. -/
theorem compile_reads_grammar (source : String) :
    (∀ tree, (Policy.compile (some source)).map Policy.expression = .ok tree ↔
      ∃ tokens, Splits (Text.trim source).toList tokens ∧ Derives tokens tree) ∧
    (∀ tokens tokens', Splits (Text.trim source).toList tokens →
      Splits (Text.trim source).toList tokens' → tokens = tokens') ∧
    (∀ (category : Category) (phrase phrase' : Derivation category),
      phrase.tokens = phrase'.tokens → phrase = phrase') ∧
    (∀ (operator : Connective) (first second : Derivation (.operand operator))
      (others : List (Derivation (.operand operator))), ∃ phrase : Derivation (.chain operator),
      phrase.tokens = first.tokens ++ ((second :: others).flatMap fun operand =>
        .connective operator :: operand.tokens) ∧
      phrase.meaning = operator.connect ((first :: second :: others).map Derivation.meaning)) ∧
    (∀ (count : Nat) (operand : Derivation .negation), ∃ phrase : Derivation .negation,
      phrase.tokens = List.replicate count .not ++ operand.tokens ∧
      phrase.meaning = Nat.repeat Expression.negation count operand.meaning) ∧
    (Splits (Text.trim source).toList [] ↔ ∀ c ∈ source.toList, Text.isBlank c = true) ∧
    (Splits (Text.trim source).toList [] → ∃ policy, Policy.compile (some source) = .ok policy ∧
      ∀ attributes groups, policy.holds attributes groups = .ok false) := by
  refine ⟨fun tree => ?_, fun tokens tokens' splits splits' => splits.unique splits',
    fun category phrase phrase' same => Derivation.unique same,
    fun operator first second others => exists_chain first second others,
    fun count operand => ⟨.negate count operand, Derivation.tokens_negate count operand,
      Derivation.meaning_negate count operand⟩, splits_trim_nil_iff, fun empty => ?_⟩
  · rw [← ofText?_eq_ok_iff]
    cases compiled : Policy.compile (some source) with
    | error fault =>
      have fails : ofText? (Text.trim source) ≠ .ok tree := fun reads => by
        have compiles : Policy.compile (some source) = .ok ⟨Text.trim source, tree⟩ :=
          compile_eq_ok_iff.mpr ⟨rfl, reads⟩
        simp [compiles] at compiled
      simp [Except.map, fails]
    | ok policy =>
      obtain ⟨-, reads⟩ := compile_eq_ok_iff.mp compiled
      simp [Except.map, reads]
  · exact ⟨⟨Text.trim source, none⟩,
      compile_eq_ok_iff.mpr ⟨rfl, ofText?_eq_ok_iff.mpr ⟨[], empty, .nothing⟩⟩, fun _ _ => rfl⟩

end BookingAccess.Expression
