/-
**Policies.**

A policy is an expression as it stands in a configuration, compiled once. A policy without an
expression, or with a blank one, is false of every user.

* `Policy.compile` reads a policy, `Policy.holds` evaluates it;
* `Policy.groupNames` are the groups whose members have to be known for that.
-/

import BookingAccess.Text.Blank
import BookingAccess.Expression.Reading
import BookingAccess.Expression.Evaluation

namespace BookingAccess

/-- A compiled boolean expression that grants a system-wide capability. -/
structure Policy where
  source : String
  expression : Option Expression

namespace Policy

/-- The policy that is false of every user. -/
def never : Policy := ⟨"", none⟩

instance : Inhabited Policy := ⟨never⟩

def compile (source : Option String) : Except ExpressionError Policy := do
  let source := Text.trim (source.getD "")
  return ⟨source, ← Expression.ofText? source⟩

/-- Is the policy false of every user without looking at one? -/
def isConstantFalse (policy : Policy) : Bool := policy.expression.isNone

def render (policy : Policy) : String :=
  if policy.source.isEmpty then "false" else policy.source

/-- The groups that the policy mentions, in order. -/
def groupNames (policy : Policy) : Std.ExtTreeSet String :=
  match policy.expression with
  | none => ∅
  | some expression => .ofList expression.groupReferences

/-- Is the policy true of a user with these attributes? `groups` gives the members of a group by
its name, and a group that does not exist has none. -/
def holds (policy : Policy) (attributes : Attributes) (groups : String → UserIds) :
    Except ExpressionError Bool :=
  match policy.expression with
  | none => .ok false
  | some expression => do
    match ← expression.eval attributes groups with
    | .boolean result => return result
    | other => throw (.notBoolean other.type)

end Policy

/-- The texts of the three policies of the service. -/
structure PolicySources where
  administrator : Option String := none
  operator : Option String := none
  reservation : Option String := none
deriving DecidableEq, Inhabited

end BookingAccess
