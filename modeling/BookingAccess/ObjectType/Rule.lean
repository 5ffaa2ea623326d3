/-
**Propagation rules.**

A rule of a class says what a grant on an object of that class gives on the objects that it is
related to. Either the child inherits the granted role, or it only becomes readable.

* `PropagationRule.childGrant?`: the role and the kind of dependency that a granted role gives.
-/

import BookingAccess.Entry
import Std.Data.ExtTreeSet

namespace BookingAccess

inductive RolePropagation
  /-- The child gets the granted role, or its substitute where the child's class does not have it. -/
  | inherit (kind : DependencyKind) (substitutes : Std.ExtTreeMap Role Role)
  /-- The child becomes readable, whatever role is granted, and stays so as long as the parent. -/
  | reference
deriving DecidableEq

/-- How grants on objects of one class carry over to their children along one relation. -/
structure PropagationRule where
  relation : String
  childClass : ObjectClass
  roles : RolePropagation
deriving DecidableEq

namespace PropagationRule

/-- Children inherit the granted role and can be detached. -/
def inherit (relation : String) (childClass : ObjectClass) : PropagationRule :=
  ⟨relation, childClass, .inherit .detach ∅⟩

def reference (relation : String) (childClass : ObjectClass) : PropagationRule :=
  ⟨relation, childClass, .reference⟩

/-- Inheriting children always go with the parent. -/
def cascading (rule : PropagationRule) : PropagationRule :=
  match rule.roles with
  | .inherit _ substitutes => { rule with roles := .inherit .cascade substitutes }
  | .reference => rule

/-- Inheriting children get `childRole` where they cannot have `granted`. -/
def substituting (rule : PropagationRule) (granted childRole : Role) : PropagationRule :=
  match rule.roles with
  | .inherit kind substitutes =>
    { rule with roles := .inherit kind (substitutes.insert granted childRole) }
  | .reference => rule

/-- The role and the kind of dependency that a granted role gives on a child whose class has the
roles that `allowed` accepts. -/
def childGrant? (rule : PropagationRule) (role : Role) (allowed : Role → Bool) :
    Option (Role × DependencyKind) :=
  match rule.roles with
  | .reference => if allowed .reader then some (.reader, .cascade) else none
  | .inherit kind substitutes =>
    if allowed role then some (role, kind)
    else (substitutes[role]?.filter allowed).map fun substitute => (substitute, kind)

/-- **A rule only gives roles that the child's class has.** -/
theorem allowed_of_childGrant? {rule : PropagationRule} {role given : Role} {allowed : Role → Bool}
    {kind : DependencyKind} (grant : rule.childGrant? role allowed = some (given, kind)) :
    allowed given = true := by
  unfold childGrant? at grant
  split at grant
  · split at grant <;> simp_all
  · split at grant
    · simp_all
    · obtain ⟨substitute, found, same⟩ := Option.map_eq_some_iff.mp grant
      have := (Option.filter_eq_some_iff.mp found).2
      simp_all

end PropagationRule

end BookingAccess
