/-
**Rearranging expressions.**

Brackets around a part of a chain and negations in front of one can be moved inwards, anywhere in a
tree: the tree goes on to have the same value, or none. An operand that has no truth may be reached
or not, depending on the operands before it, so that the laws of truth tables are not enough: they
are shown for operands of which each is true, false or neither, in the order in which they stand.

* `outcome`: the value of a tree, where all faults are one;
* `Connective.decide?`: what the operands of a chain come to, by their truth alone;
* `decide?_regroup`, `decide?_dual`: the laws of chains;
* `Context`, `Alike.fill`: what cannot be told apart cannot be told apart inside of a tree;
* `rearranging_keeps_verdict`: so no policy grants more or less when it is rearranged.
-/

import BookingAccess.Proofs.Ensures
import BookingAccess.Proofs.Expression.Evaluation
import BookingAccess.Service.SystemAccess

namespace BookingAccess

/-- A value that is boolean. -/
def Value.truth? : Value → Option Bool
  | .boolean value => some value
  | _ => none

theorem Value.toOption_expectBoolean (operator : Operator) (value : Value) :
    (value.expectBoolean operator).toOption = value.truth? := by
  cases value <;> rfl

theorem Value.toOption_compare (relation : Comparison) (left right : Value) :
    (compare relation left right).toOption = compare? left right relation := by
  unfold compare
  split <;> simp_all [Except.toOption]

theorem toOption_bind {ε α β : Type} (first : Except ε α) (next : α → Except ε β) :
    (first >>= next).toOption = first.toOption.bind fun value => (next value).toOption := by
  cases first <;> rfl

theorem toOption_map {ε α β : Type} (change : α → β) (result : Except ε α) :
    (result.map change).toOption = result.toOption.map change := by
  cases result <;> rfl

namespace Expression

/-! ### Chains of truths -/

namespace Connective

/-- The connective of the negated operands. -/
def dual : Connective → Connective
  | .or => .and
  | .and => .or

theorem deciding_dual (connective : Connective) :
    connective.dual.deciding = !connective.deciding := by
  cases connective <;> rfl

/-- What a chain comes to whose operands are true, false or neither. -/
def decide? (connective : Connective) : List (Option Bool) → Option Bool
  | [] => some !connective.deciding
  | truth :: truths => truth.bind fun value =>
    if value = connective.deciding then some value else decide? connective truths

variable (connective : Connective)

/-- The rest of a chain counts if the front leaves it undecided. -/
theorem decide?_append (front rest : List (Option Bool)) :
    connective.decide? (front ++ rest) = (connective.decide? front).bind fun value =>
      if value = connective.deciding then some value else connective.decide? rest := by
  induction front with
  | nil =>
    rw [List.nil_append, decide?, Option.bind_some, if_neg (by simp)]
  | cons truth truths ih =>
    rw [List.cons_append, decide?, decide?, Option.bind_assoc]
    refine Option.bind_congr fun value _ => ?_
    by_cases decides : value = connective.deciding
    · rw [if_pos decides, if_pos decides, Option.bind_some, if_pos decides]
    · rw [if_neg decides, if_neg decides, ih]

/-- **A part of a chain may be a chain of its own.** -/
theorem decide?_regroup (before operands behind : List (Option Bool)) :
    connective.decide? (before ++ [connective.decide? operands] ++ behind) =
      connective.decide? (before ++ operands ++ behind) := by
  rw [List.append_assoc, List.append_assoc, decide?_append, decide?_append _ before,
    List.singleton_append, decide?, decide?_append]

/-- **A negated chain is the dual chain of the negated operands.** -/
theorem decide?_dual (truths : List (Option Bool)) :
    connective.dual.decide? (truths.map (Option.map not)) =
      (connective.decide? truths).map not := by
  induction truths with
  | nil => rw [List.map_nil, decide?, decide?, deciding_dual, Option.map_some]
  | cons truth truths ih =>
    rw [List.map_cons, decide?, decide?, Option.bind_map, Option.map_bind, deciding_dual, ih]
    refine Option.bind_congr fun value _ => ?_
    by_cases decides : value = connective.deciding
    · simp [decides]
    · simp [decides]

end Connective

/-! ### Outcomes -/

section Outcomes

variable (attributes : Attributes) (groups : String → UserIds)

/-- The value of a tree, or none where evaluating it fails in one way or another. -/
def outcome (tree : Expression) : Option Value := (tree.eval attributes groups).toOption

/-- The outcome of a tree, if that is boolean. -/
def truth? (tree : Expression) : Option Bool := (tree.outcome attributes groups).bind Value.truth?

theorem toOption_evalChain (connective : Connective) (operands : List Expression) :
    (evalChain attributes groups connective operands).toOption =
      connective.decide? (operands.map (truth? attributes groups)) := by
  induction operands with
  | nil => rfl
  | cons operand operands ih =>
    rw [evalChain, toOption_bind, toOption_bind]
    simp only [Value.toOption_expectBoolean]
    refine Option.bind_congr fun value _ => ?_
    rw [← ih]
    split <;> rfl

theorem outcome_connect (connective : Connective) (operands : List Expression) :
    (connective.connect operands).outcome attributes groups =
      (connective.decide? (operands.map (truth? attributes groups))).map .boolean := by
  rw [outcome, eval_connect, toOption_map, toOption_evalChain]

theorem outcome_negation (operand : Expression) :
    (negation operand).outcome attributes groups =
      (operand.truth? attributes groups).map fun value => .boolean !value := by
  rw [outcome, eval, toOption_bind, truth?, Option.map_bind]
  refine Option.bind_congr fun value _ => ?_
  cases value <;> rfl

theorem outcome_comparison (relation : Comparison) (left right : Expression) :
    (comparison relation left right).outcome attributes groups =
      (left.outcome attributes groups).bind fun first =>
        (right.outcome attributes groups).bind fun second =>
          (Value.compare? first second relation).map .boolean := by
  rw [outcome, eval, toOption_bind]
  refine Option.bind_congr fun first _ => ?_
  rw [toOption_bind]
  refine Option.bind_congr fun second _ => ?_
  rw [toOption_bind, Value.toOption_compare, Option.map_eq_bind]
  rfl

theorem truth?_connect (connective : Connective) (operands : List Expression) :
    (connective.connect operands).truth? attributes groups =
      connective.decide? (operands.map (truth? attributes groups)) := by
  rw [truth?, outcome_connect, Option.bind_map]
  exact Option.bind_fun_some _

theorem truth?_negation (operand : Expression) :
    (negation operand).truth? attributes groups = (operand.truth? attributes groups).map not := by
  rw [truth?, outcome_negation, Option.bind_map, Option.map_eq_bind]
  rfl

end Outcomes

/-! ### Trees that cannot be told apart -/

/-- Whoever is asked about, both trees have the same value, or neither has one. -/
def Alike (tree other : Expression) : Prop :=
  ∀ attributes groups, tree.outcome attributes groups = other.outcome attributes groups

theorem Alike.truth? {tree other : Expression} (alike : Alike tree other)
    (attributes : Attributes) (groups : String → UserIds) :
    tree.truth? attributes groups = other.truth? attributes groups := by
  rw [Expression.truth?, Expression.truth?, alike]

/-- A tree with a gap in it, at any depth. -/
inductive Context
  | gap
  | negation (inner : Context)
  | operand (connective : Connective) (before : List Expression) (inner : Context)
      (behind : List Expression)
  | comparedLeft (relation : Comparison) (inner : Context) (right : Expression)
  | comparedRight (relation : Comparison) (left : Expression) (inner : Context)

/-- The tree with another one in the gap. -/
def Context.fill : Context → Expression → Expression
  | .gap, tree => tree
  | .negation inner, tree => .negation (inner.fill tree)
  | .operand connective before inner behind, tree =>
    connective.connect (before ++ [inner.fill tree] ++ behind)
  | .comparedLeft relation inner right, tree => .comparison relation (inner.fill tree) right
  | .comparedRight relation left inner, tree => .comparison relation left (inner.fill tree)

variable {tree other : Expression}

/-- **Inside of a tree they cannot be told apart either.** -/
theorem Alike.fill (alike : Alike tree other) (context : Context) :
    Alike (context.fill tree) (context.fill other) := by
  induction context with
  | gap => exact alike
  | negation inner ih =>
    intro attributes groups
    rw [Context.fill, Context.fill, outcome_negation, outcome_negation, ih.truth?]
  | operand connective before inner behind ih =>
    intro attributes groups
    rw [Context.fill, Context.fill, outcome_connect, outcome_connect]
    simp only [List.map_append, List.map_singleton, ih.truth?]
  | comparedLeft relation inner right ih =>
    intro attributes groups
    rw [Context.fill, Context.fill, outcome_comparison, outcome_comparison, ih]
  | comparedRight relation left inner ih =>
    intro attributes groups
    rw [Context.fill, Context.fill, outcome_comparison, outcome_comparison, ih]

theorem alike_regroup (connective : Connective) (before operands behind : List Expression) :
    Alike (connective.connect (before ++ [connective.connect operands] ++ behind))
      (connective.connect (before ++ operands ++ behind)) := by
  intro attributes groups
  rw [outcome_connect, outcome_connect]
  simp only [List.map_append, List.map_singleton, truth?_connect]
  rw [Connective.decide?_regroup]

theorem alike_dual (connective : Connective) (operands : List Expression) :
    Alike (.negation (connective.connect operands))
      (connective.dual.connect (operands.map .negation)) := by
  intro attributes groups
  have negated : (operands.map Expression.negation).map (Expression.truth? attributes groups) =
      (operands.map (Expression.truth? attributes groups)).map (Option.map not) := by
    simp only [List.map_map]
    exact List.map_congr_left fun operand _ => truth?_negation attributes groups operand
  rw [outcome_negation, outcome_connect, truth?_connect, negated, Connective.decide?_dual,
    Option.map_map]
  rfl

/-! ### Groups that are mentioned -/

theorem groupReferences_fill (same : tree.groupReferences = other.groupReferences)
    (context : Context) :
    (context.fill tree).groupReferences = (context.fill other).groupReferences := by
  induction context with
  | gap => exact same
  | negation inner ih => exact ih
  | operand connective before inner behind ih =>
    rw [Context.fill, Context.fill, groupReferences_connect, groupReferences_connect]
    simp only [List.flatMap_append, List.flatMap_singleton, ih]
  | comparedLeft relation inner right ih =>
    exact congrArg (· ++ right.groupReferences) ih
  | comparedRight relation left inner ih =>
    exact congrArg (left.groupReferences ++ ·) ih

theorem groupReferences_regroup (connective : Connective)
    (before operands behind : List Expression) :
    (connective.connect (before ++ [connective.connect operands] ++ behind)).groupReferences =
      (connective.connect (before ++ operands ++ behind)).groupReferences := by
  simp only [groupReferences_connect, List.flatMap_append, List.flatMap_singleton]

theorem groupReferences_dual (connective : Connective) (operands : List Expression) :
    (negation (connective.connect operands)).groupReferences =
      (connective.dual.connect (operands.map .negation)).groupReferences := by
  rw [groupReferences, groupReferences_connect, groupReferences_connect, List.flatMap_map]
  rfl

end Expression

/-! ### Policies -/

/-- Whenever one of the calls is made, the other one leaves the same state behind and gives the same
answer, or both fail. -/
def Action.Matches {α : Type} (first second : Action α) : Prop :=
  ∀ service, (first.run.run service).2 = (second.run.run service).2 ∧
    (first.run.run service).1.toOption = (second.run.run service).1.toOption

namespace Action.Matches

variable {α β : Type}

theorem bind {action : Action α} {next next' : α → Action β}
    (same : ∀ value, (next value).Matches (next' value)) :
    (action >>= next).Matches (action >>= next') := by
  intro service
  unfold ExceptT.run StateT.run
  simp only [Bind.bind, ExceptT.bind, ExceptT.mk, StateT.bind, ExceptT.bindCont]
  rcases (action service : Except AccessError α × Service) with ⟨fault | value, after⟩
  · exact ⟨rfl, rfl⟩
  · exact same value after

/-- What a policy comes to is the answer, and so is its fault. -/
theorem ofResult {first second : Except ExpressionError Bool} :
    first.toOption = second.toOption → Matches
      (match first with
        | .ok result => pure result
        | .error fault => throw (.expression fault))
      (match second with
        | .ok result => pure result
        | .error fault => throw (.expression fault)) := by
  intro same service
  cases first with
  | error fault =>
    cases second with
    | error => exact ⟨rfl, rfl⟩
    | ok => exact nomatch same
  | ok result =>
    cases second with
    | error => exact nomatch same
    | ok other =>
      obtain rfl := Option.some.inj same
      exact ⟨rfl, rfl⟩

end Action.Matches

namespace Expression

/-- The trees are as good as one another, as they are and as policies of the service: these hold
alike, or fail alike, and so does the service when it asks for the groups and evaluates them. -/
structure SameVerdict (tree other : Expression) : Prop where
  outcome : ∀ attributes groups, tree.outcome attributes groups = other.outcome attributes groups
  holds : ∀ source source' attributes groups,
    ((⟨source, some tree⟩ : Policy).holds attributes groups).toOption =
      ((⟨source', some other⟩ : Policy).holds attributes groups).toOption
  granted : ∀ source source' token,
    (Service.evaluate ⟨source, some tree⟩ token).Matches
      (Service.evaluate ⟨source', some other⟩ token)

variable {tree other : Expression}

theorem toOption_holds (source : String) (tree : Expression) (attributes : Attributes)
    (groups : String → UserIds) :
    ((⟨source, some tree⟩ : Policy).holds attributes groups).toOption =
      tree.truth? attributes groups := by
  rw [Policy.holds, toOption_bind]
  refine Option.bind_congr fun value _ => ?_
  cases value <;> rfl

theorem SameVerdict.ofAlike (alike : Alike tree other)
    (same : tree.groupReferences = other.groupReferences) : SameVerdict tree other where
  outcome := alike
  holds source source' attributes groups := by
    rw [toOption_holds, toOption_holds, alike.truth?]
  granted source source' token := by
    unfold Service.evaluate
    refine .bind fun user => .bind fun assurance => ?_
    unfold Service.evaluateFor
    have mentioned : (⟨source, some tree⟩ : Policy).groupNames =
        (⟨source', some other⟩ : Policy).groupNames := by
      simp only [Policy.groupNames, same]
    rw [mentioned]
    refine .bind fun groups => .ofResult ?_
    rw [toOption_holds, toOption_holds, alike.truth?]

/-- **Policies may be rearranged.** At any depth of a tree, a chain inside of a chain of the same
connective may be put in line with it, and a negation in front of a chain may be moved to its
operands. Whatever the operands are, the policy that this gives holds for the same users, and it
fails for those for whom the old one fails. -/
theorem rearranging_keeps_verdict (context : Context) (connective : Connective) :
    (∀ before operands behind, SameVerdict
      (context.fill (connective.connect (before ++ [connective.connect operands] ++ behind)))
      (context.fill (connective.connect (before ++ operands ++ behind)))) ∧
    ∀ operands, SameVerdict (context.fill (.negation (connective.connect operands)))
      (context.fill (connective.dual.connect (operands.map .negation))) :=
  ⟨fun before operands behind =>
    .ofAlike ((alike_regroup connective before operands behind).fill context)
      (groupReferences_fill (groupReferences_regroup connective before operands behind) context),
  fun operands => .ofAlike ((alike_dual connective operands).fill context)
    (groupReferences_fill (groupReferences_dual connective operands) context)⟩

-- The fault may be another one, since the operand is now one of a negation.
example : (negation (.conjunction [.literal .null])).eval {} (fun _ => .empty) =
      .error (.typeMismatch .conjunction .null .boolean) ∧
    (disjunction [.negation (.literal .null)]).eval {} (fun _ => .empty) =
      .error (.typeMismatch .negation .null .boolean) := ⟨rfl, rfl⟩

end Expression

end BookingAccess
