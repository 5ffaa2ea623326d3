/-
**What parsing expressions take.**

* The `lex` lemmas say what tokens take, one for each form of an expression;
* `Peg.lex_many_one`: a repetition over a class of characters takes all that stand there;
* `Peg.run_many_skip`: in a phrase, a repetition is a run of `again`, up to the gap behind it.
-/

import Mathlib.Data.List.TakeWhile
import BookingAccess.Text.Peg

namespace BookingAccess.Peg

/-! ### Forms of expressions -/

section Forms

variable {Rule : Type} {call : Rule → Parser Rule} {skip : List Char → List Char}
  {first second inner : Peg Rule} {chars : List Char}

theorem run_text {word : String} : (text word).run call skip chars =
    (word.toList.isPrefixOf? chars).map fun rest => ([], rest) := rfl

@[simp] theorem run_call (rule : Rule) :
    (Peg.call rule).run call skip chars = call rule chars := rfl

theorem run_append : (first ++ second).run call skip chars = (do
    let (front, middle) ← first.run call skip chars
    let (back, rest) ← second.run call skip (skip middle)
    return (front ++ back, rest)) := rfl

theorem run_orElse : (first <|> second).run call skip chars =
    (first.run call skip chars).or (second.run call skip chars) := by
  change ((first.run call skip chars).orElse fun _ => second.run call skip chars) = _
  cases first.run call skip chars <;> rfl

theorem run_maybe : (maybe inner).run call skip chars =
    some ((inner.run call skip chars).getD ([], chars)) := by
  change ((inner.run call skip chars).orElse fun _ => some ([], chars)) = _
  cases inner.run call skip chars <;> rfl

theorem run_absent : (absent inner).run call skip chars =
    if (inner.run call skip chars).isSome then none else some ([], chars) := by
  rw [run]
  cases inner.run call skip chars <;> rfl

/-- One more round of a repetition: the gap, and the expression behind it. -/
def round (call : Rule → Parser Rule) (skip : List Char → List Char) (inner : Peg Rule) :
    Parser Rule := fun chars => inner.run call skip (skip chars)

theorem run_many_of_none (fails : inner.run call skip chars = none) :
    (many inner).run call skip chars = some ([], chars) := by
  rw [run, fails]

theorem run_many_of_some {front : List (ParseTree Rule)} {middle : List Char}
    (taken : inner.run call skip chars = some (front, middle)) :
    (many inner).run call skip chars =
      some (front ++ (again (round call skip inner) chars.length middle).1,
        (again (round call skip inner) chars.length middle).2) := by
  rw [run, taken]
  rfl

end Forms

/-! ### Tokens -/

section Tokens

variable (first second : Peg Empty) (chars : List Char)

@[simp] theorem lex_text (word : String) :
    (text word).lex chars = word.toList.isPrefixOf? chars := by
  rw [lex, run_text]
  cases word.toList.isPrefixOf? chars <;> rfl

@[simp] theorem lex_one_nil (accepts : Char → Bool) : (one accepts).lex [] = none := rfl

@[simp] theorem lex_one_cons (accepts : Char → Bool) (c : Char) (rest : List Char) :
    (one accepts).lex (c :: rest) = if accepts c then some rest else none := by
  change Option.map Prod.snd (if accepts c then some ([], rest) else none) = _
  split <;> rfl

@[simp] theorem lex_append : (first ++ second).lex chars = (first.lex chars).bind second.lex := by
  rw [lex, lex, run_append]
  rcases first.run _ id chars with _ | ⟨front, middle⟩
  · rfl
  · change Option.map _ (Option.bind (second.run _ id middle) _) = second.lex middle
    rw [lex]
    rcases second.run _ id middle with _ | ⟨back, rest⟩ <;> rfl

@[simp] theorem lex_orElse :
    (first <|> second).lex chars = (first.lex chars).or (second.lex chars) := by
  rw [lex, lex, lex, run_orElse]
  cases first.run _ id chars <;> rfl

@[simp] theorem lex_absent :
    (absent first).lex chars = if (first.lex chars).isSome then none else some chars := by
  rw [lex, lex, run_absent]
  cases first.run _ id chars <;> rfl

@[simp] theorem lex_maybe : (maybe first).lex chars = some ((first.lex chars).getD chars) := by
  rw [lex, lex, run_maybe]
  cases first.run _ id chars <;> rfl

/-- Steps of one character each take all characters of a class that stand one after another. -/
theorem again_dropWhile {step : Parser Empty} (accepts : Char → Bool)
    (single : ∀ chars, (step chars).map Prod.snd = (one accepts).lex chars) {rounds : Nat}
    {chars : List Char} (enough : chars.length ≤ rounds) :
    (again step rounds chars).2 = chars.dropWhile accepts := by
  induction chars generalizing rounds with
  | nil =>
    have taken : step [] = none := by simpa using single []
    cases rounds with
    | zero => rfl
    | succ rounds => simp [again, taken]
  | cons c rest hypothesis =>
    obtain ⟨rounds, rfl⟩ : ∃ fewer, rounds = fewer + 1 := ⟨rounds - 1, by simp at enough; omega⟩
    have taken := single (c :: rest)
    by_cases accepted : accepts c = true
    · simp only [lex_one_cons, accepted, if_true, Option.map_eq_some_iff] at taken
      obtain ⟨⟨trees, rest⟩, taken, rfl⟩ := taken
      simpa [again, taken, accepted] using hypothesis (by simpa using enough)
    · simp only [lex_one_cons, accepted, Bool.false_eq_true, if_false,
        Option.map_eq_none_iff] at taken
      simp [again, taken, accepted]

/-- A repetition of one character takes all of the class that stand there. -/
theorem lex_many (accepts : Char → Bool) {inner : Peg Empty}
    (single : ∀ chars, inner.lex chars = (one accepts).lex chars) (chars : List Char) :
    (many inner).lex chars = some (chars.dropWhile accepts) := by
  have whole : (again (inner.run Empty.elim id) (chars.length + 1) chars).2 =
      chars.dropWhile accepts := again_dropWhile accepts single (by omega)
  rw [lex]
  cases taken : inner.run Empty.elim id chars with
  | none =>
    rw [again, taken] at whole
    rw [run_many_of_none taken]
    exact congrArg some whole
  | some found =>
    rw [again, taken] at whole
    rw [run_many_of_some taken]
    exact congrArg some whole

@[simp] theorem lex_many_one (accepts : Char → Bool) :
    (many (one accepts)).lex chars = some (chars.dropWhile accepts) :=
  lex_many accepts (fun _ => rfl) chars

end Tokens

/-! ### Phrases -/

section Phrases

variable {Rule : Type} {call : Rule → Parser Rule} {skip : List Char → List Char}
  {first second inner : Peg Rule} {chars rest : List Char} {trees : List (ParseTree Rule)}

theorem run_text_eq_some_iff {word : String} :
    (text word).run call skip chars = some (trees, rest) ↔
      word.toList.isPrefixOf? chars = some rest ∧ trees = [] := by
  simp only [run_text, Option.map_eq_some_iff, Prod.mk.injEq]
  constructor
  · rintro ⟨_, taken, rfl, rfl⟩
    exact ⟨taken, rfl⟩
  · rintro ⟨taken, rfl⟩
    exact ⟨_, taken, rfl, rfl⟩

theorem run_append_eq_some_iff :
    (first ++ second).run call skip chars = some (trees, rest) ↔
      ∃ front middle back, first.run call skip chars = some (front, middle) ∧
        second.run call skip (skip middle) = some (back, rest) ∧ trees = front ++ back := by
  simp only [run_append, bind, Option.bind_eq_some_iff, pure, Option.some.injEq, Prod.exists,
    Prod.mk.injEq]
  constructor
  · rintro ⟨front, middle, taken, back, behind, takenBack, rfl, rfl⟩
    exact ⟨front, middle, back, taken, takenBack, rfl⟩
  · rintro ⟨front, middle, back, taken, takenBack, rfl⟩
    exact ⟨front, middle, taken, back, rest, takenBack, rfl, rfl⟩

/-- What starts with a failure fails. -/
theorem run_append_eq_none (fails : first.run call skip chars = none) :
    (first ++ second).run call skip chars = none := by
  rw [Option.eq_none_iff_forall_ne_some]
  rintro ⟨trees, rest⟩ taken
  obtain ⟨_, _, _, takenFirst, -⟩ := run_append_eq_some_iff.mp taken
  exact absurd takenFirst (by simp [fails])

theorem run_orElse_eq_some_iff :
    (first <|> second).run call skip chars = some (trees, rest) ↔
      first.run call skip chars = some (trees, rest) ∨
        first.run call skip chars = none ∧ second.run call skip chars = some (trees, rest) := by
  rw [run_orElse, Option.or_eq_some_iff]

theorem run_maybe_eq_some_iff :
    (maybe inner).run call skip chars = some (trees, rest) ↔
      inner.run call skip chars = some (trees, rest) ∨
        inner.run call skip chars = none ∧ trees = [] ∧ rest = chars := by
  rw [run_maybe]
  cases inner.run call skip chars with
  | none => simp [eq_comm]
  | some found => simp

/-- A repetition is nothing, or the expression once and the rounds behind it. -/
theorem run_many_eq_some (taken : (many inner).run call skip chars = some (trees, rest)) :
    inner.run call skip chars = none ∧ trees = [] ∧ rest = chars ∨
      ∃ front middle, inner.run call skip chars = some (front, middle) ∧
        trees = front ++ (again (round call skip inner) chars.length middle).1 ∧
        rest = (again (round call skip inner) chars.length middle).2 := by
  cases once : inner.run call skip chars with
  | none =>
    rw [run_many_of_none once] at taken
    cases taken
    exact .inl ⟨rfl, rfl, rfl⟩
  | some found =>
    rw [run_many_of_some once] at taken
    cases taken
    exact .inr ⟨_, _, rfl, rfl, rfl⟩

/-- Behind a gap, a repetition is made of rounds, but for the gap that it may leave. -/
theorem run_many_skip (call : Rule → Parser Rule) (skip : List Char → List Char)
    (inner : Peg Rule) (chars : List Char) :
    ∃ rest, (many inner).run call skip (skip chars) =
        some ((again (round call skip inner) ((skip chars).length + 1) chars).1, rest) ∧
      (rest = (again (round call skip inner) ((skip chars).length + 1) chars).2 ∨
        rest = skip (again (round call skip inner) ((skip chars).length + 1) chars).2) := by
  cases taken : inner.run call skip (skip chars) with
  | none =>
    have fails : round call skip inner chars = none := taken
    rw [run_many_of_none taken, again, fails]
    exact ⟨_, rfl, .inr rfl⟩
  | some found =>
    have goes : round call skip inner chars = some found := taken
    rw [run_many_of_some taken, again, goes]
    exact ⟨_, rfl, .inl rfl⟩

theorem again_of_run_many (idempotent : ∀ chars, skip (skip chars) = skip chars)
    (taken : (many inner).run call skip (skip chars) = some (trees, rest)) :
    trees = (again (round call skip inner) ((skip chars).length + 1) chars).1 ∧
      skip rest = skip (again (round call skip inner) ((skip chars).length + 1) chars).2 := by
  obtain ⟨behind, run, same⟩ := run_many_skip call skip inner chars
  rw [run] at taken
  cases taken
  obtain same | same := same
  · exact ⟨rfl, by rw [same]⟩
  · exact ⟨rfl, by rw [same, idempotent]⟩

end Phrases

end BookingAccess.Peg

namespace BookingAccess.Grammar

variable {Rule : Type} {grammar : Grammar Rule} {rule : Rule} {depth : Nat} {chars rest : List Char}
  {trees : List (ParseTree Rule)}

theorem parse_token_eq_some_iff {pattern : Peg Empty} (body : grammar.body rule = .token pattern) :
    grammar.parse (depth + 1) rule chars = some (trees, rest) ↔
      pattern.lex chars = some rest ∧
        trees = [.node rule (chars.take (chars.length - rest.length)) []] := by
  simp only [parse, body]
  cases pattern.lex chars with
  | none => simp
  | some behind =>
    simp only [Option.map_some, Option.bind_eq_bind, Option.bind_some, Option.pure_def,
      Option.some.injEq, Prod.mk.injEq]
    constructor
    · rintro ⟨rfl, rfl⟩
      exact ⟨rfl, rfl⟩
    · rintro ⟨rfl, rfl⟩
      exact ⟨rfl, rfl⟩

theorem parse_phrase_eq_some_iff {pattern : Peg Rule} (body : grammar.body rule = .phrase pattern) :
    grammar.parse (depth + 1) rule chars = some (trees, rest) ↔
      ∃ inner, pattern.run (grammar.parse depth) grammar.skip chars = some (inner, rest) ∧
        trees = [.node rule (chars.take (chars.length - rest.length)) inner] := by
  simp only [parse, body]
  cases pattern.run (grammar.parse depth) grammar.skip chars with
  | none => simp
  | some found =>
    simp only [Option.bind_eq_bind, Option.bind_some, Option.pure_def, Option.some.injEq,
      Prod.mk.injEq]
    constructor
    · rintro ⟨rfl, rfl⟩
      exact ⟨_, rfl, rfl⟩
    · rintro ⟨inner, rfl, rfl⟩
      exact ⟨rfl, rfl⟩

/-- A rule gives one tree, its own. -/
theorem parse_eq_some (taken : grammar.parse depth rule chars = some (trees, rest)) :
    ∃ text inner, trees = [.node rule text inner] := by
  cases depth with
  | zero => simp [parse] at taken
  | succ depth =>
    cases body : grammar.body rule with
    | token pattern => exact ⟨_, _, ((parse_token_eq_some_iff body).mp taken).2⟩
    | phrase pattern =>
      obtain ⟨inner, -, same⟩ := (parse_phrase_eq_some_iff body).mp taken
      exact ⟨_, _, same⟩

end BookingAccess.Grammar
