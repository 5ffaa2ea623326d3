/-
**What an expression evaluates to.**

Conjunction and disjunction are the two connectives of chains. They differ in the value that
decides a chain before its end, and in the operator that an operand without truth is reported for.

* `evalChain`, `eval_connect`: the chains of both connectives, evaluated alike;
* `induct`: induction over trees, with one case for the chains;
* `eval_congr`: the value of a tree depends on no group but those that it mentions.
-/

import BookingAccess.Expression.Evaluation
import BookingAccess.Expression.Reading

namespace BookingAccess.Expression

/-! ### Chains -/

namespace Connective

/-- The operator that is named where an operand has no truth. -/
def operator : Connective → Operator
  | .or => .disjunction
  | .and => .conjunction

/-- The truth of an operand that decides the chain. -/
def deciding : Connective → Bool
  | .or => true
  | .and => false

end Connective

/-- The truth of a chain. Operands behind the first deciding one are not looked at. -/
def evalChain (attributes : Attributes) (groups : String → UserIds) (connective : Connective) :
    List Expression → Except ExpressionError Bool
  | [] => .ok !connective.deciding
  | operand :: operands => do
    let truth ← operand.eval attributes groups >>= Value.expectBoolean connective.operator
    if truth = connective.deciding then return truth
    else evalChain attributes groups connective operands

section Chains

variable (attributes : Attributes) (groups : String → UserIds)

theorem evalAll_eq_evalChain (operands : List Expression) :
    evalAll attributes groups operands = evalChain attributes groups .and operands := by
  induction operands with
  | nil => rfl
  | cons operand operands ih =>
    rw [evalAll, evalChain, bind_assoc]
    refine bind_congr fun value => bind_congr fun truth => ?_
    cases truth with
    | false => rfl
    | true => exact ih

theorem evalAny_eq_evalChain (operands : List Expression) :
    evalAny attributes groups operands = evalChain attributes groups .or operands := by
  induction operands with
  | nil => rfl
  | cons operand operands ih =>
    rw [evalAny, evalChain, bind_assoc]
    refine bind_congr fun value => bind_congr fun truth => ?_
    cases truth with
    | false => exact ih
    | true => rfl

/-- **A chain is boolean wherever it has a value.** -/
theorem eval_connect (connective : Connective) (operands : List Expression) :
    (connective.connect operands).eval attributes groups =
      (evalChain attributes groups connective operands).map .boolean := by
  cases connective with
  | or =>
    rw [Connective.connect, eval, evalAny_eq_evalChain]
    rfl
  | and =>
    rw [Connective.connect, eval, evalAll_eq_evalChain]
    rfl

end Chains

theorem groupReferencesIn_eq_flatMap (operands : List Expression) :
    groupReferencesIn operands = operands.flatMap groupReferences := by
  induction operands with
  | nil => rfl
  | cons operand operands ih => rw [groupReferencesIn, ih, List.flatMap_cons]

theorem groupReferences_connect (connective : Connective) (operands : List Expression) :
    (connective.connect operands).groupReferences = operands.flatMap groupReferences := by
  cases connective <;> exact groupReferencesIn_eq_flatMap operands

/-! ### Induction -/

/-- **Induction over trees**, where the operands of a chain are all taken at once. -/
@[elab_as_elim]
theorem induct {motive : Expression → Prop} (literal : ∀ value, motive (.literal value))
    (property : ∀ name, motive (.property name)) (group : ∀ name, motive (.group name))
    (negation : ∀ operand, motive operand → motive (.negation operand))
    (chain : ∀ (connective : Connective) operands, (∀ operand ∈ operands, motive operand) →
      motive (connective.connect operands))
    (comparison : ∀ relation left right, motive left → motive right →
      motive (.comparison relation left right)) (tree : Expression) : motive tree :=
  @Expression.rec motive (fun operands => ∀ operand ∈ operands, motive operand) literal property
    group negation (chain .and) (chain .or) comparison (fun _ absent => nomatch absent)
    (fun _ _ first others => List.forall_mem_cons.mpr ⟨first, others⟩) tree

/-! ### Groups -/

variable {attributes : Attributes} {groups groups' : String → UserIds}

theorem evalChain_congr {connective : Connective} {operands : List Expression}
    (same : ∀ operand ∈ operands,
      operand.eval attributes groups = operand.eval attributes groups') :
    evalChain attributes groups connective operands =
      evalChain attributes groups' connective operands := by
  induction operands with
  | nil => rfl
  | cons operand operands ih =>
    obtain ⟨first, others⟩ := List.forall_mem_cons.mp same
    rw [evalChain, evalChain, first, ih others]

/-- **Only the groups that a tree mentions matter**, for its value as well as for its fault. -/
theorem eval_congr {tree : Expression}
    (same : ∀ name ∈ tree.groupReferences, groups name = groups' name) :
    tree.eval attributes groups = tree.eval attributes groups' := by
  induction tree using induct with
  | literal value => rfl
  | property name => rfl
  | group name => rw [eval, eval, same name (.head _)]
  | negation operand ih => rw [eval, eval, ih same]
  | chain connective operands ih =>
    rw [groupReferences_connect] at same
    rw [eval_connect, eval_connect, evalChain_congr fun operand listed => ih operand listed
      fun name mentioned => same name (List.mem_flatMap.mpr ⟨operand, listed, mentioned⟩)]
  | comparison relation left right ihLeft ihRight =>
    rw [eval, eval, ihLeft fun name mentioned => same name (List.mem_append_left _ mentioned),
      ihRight fun name mentioned => same name (List.mem_append_right _ mentioned)]

end BookingAccess.Expression
