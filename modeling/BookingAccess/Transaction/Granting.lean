/-
**Granting.**

A grant on an object propagates along the rules of the object's class: to the children that the
graph of objects reports, to their children, and so on. Each child entry depends on the entry that
it was granted for.

* `Manager.createEntry`: a grant and everything that follows from it;
* `Manager.propagateToChild`: one step of propagation;
* `Manager.createEntriesForChild`: the grants of an object for a child that was attached later.
-/

import BookingAccess.Transaction.Basic

namespace BookingAccess.Manager

open Service

/-- The class of the object has to be registered and to have the role. -/
def validateRole (object : ObjectRef) (role : Role) : Action Unit := do
  match (← get).registry.get? object.objectClass with
  | none => throw (.unknownObjectClass object.objectClass)
  | some type => if !type.allows role then throw (.invalidRole object role)

/-- Store a new entry and record it in the transaction. -/
def insertEntry (manager : ManagerId) (identity : Identity) (object : ObjectRef) (role : Role) :
    Action Entry := do
  let entry ← .ofStore (StoreClient.createEntry identity object role)
  record (.entryCreated entry)
  changeWorkingSets manager (·.add entry)
  return entry

/-- Record that the child entry was granted for the parent entry, unless that is known already. -/
def linkEntries (parent child : Entry) (kind : DependencyKind) : Action Unit := do
  if (← .ofStore (StoreClient.findDependency parent.id child.id)).isNone then
    let dependency : Dependency := ⟨parent.id, child.id, kind⟩
    .ofStore (StoreClient.createDependency dependency)
    record (.dependencyCreated dependency)

/-- Grant a role on a child object to the identity of the parent entry. A new child entry
propagates further by `descend`. Nothing is granted where the role of the parent entry does not
propagate. -/
def grantChild (descend : Entry → Action Unit) (manager : ManagerId) (parent : Entry)
    (child : ObjectRef) (role : Role) (kind : DependencyKind) : Action (Option Entry) := do
  requireTransaction manager
  if !(← get).registry.isPropagatable parent.object.objectClass parent.role then return none
  validateRole child role
  let entry ← match ← getEntry manager parent.identity child role with
    | some existing => pure existing
    | none => do
      let entry ← insertEntry manager parent.identity child role
      descend entry
      pure entry
  linkEntries parent entry kind
  return some entry

/-- Apply one rule of the class of an entry's object. -/
def applyRule (descend : Entry → Action Unit) (manager : ManagerId) (entry : Entry)
    (rule : PropagationRule) : Action Unit := do
  match (← get).registry.childGrant? rule entry.role with
  | none => return ()
  | some (role, kind) =>
    let children ← .ofStore (GraphClient.children entry.object rule.relation)
    (children.filter (·.objectClass == rule.childClass)).forM fun child => do
      let _ ← grantChild descend manager entry child role kind

/-- Apply every rule of the class of the entry's object, down to this depth. -/
def propagate : Nat → ManagerId → Entry → Action Unit
  | 0, _, _ => return ()
  | depth + 1, manager, entry => do
    ((← get).registry.rules entry.object.objectClass).forM
      (applyRule (propagate depth manager) manager entry)

/-- Deeper than propagation can go. Each step down stores a new grant for one identity, and there
is at most one for each child in the graph and each role of its class. -/
def propagationDepth (service : Service) : Nat :=
  (service.graph.links.flatMap fun link =>
    service.registry.allowedRoles link.child.objectClass).length + 1

/-- Everything that follows from an entry. -/
def propagateFrom (manager : ManagerId) (entry : Entry) : Action Unit := do
  propagate (propagationDepth (← get)) manager entry

/-- Grant a role on a child object to the identity of the parent entry, with everything that
follows from it. -/
def propagateToChild (manager : ManagerId) (parent : Entry) (child : ObjectRef) (role : Role)
    (kind : DependencyKind) : Action (Option Entry) :=
  grantChild (propagateFrom manager) manager parent child role kind

/-- Grant a role on an object, with everything that follows from it. A grant that exists already
is given back as it is. Root needs no grants and gets none. -/
def createEntry (manager : ManagerId) (identity : Identity) (object : ObjectRef) (role : Role) :
    Action (Option Entry) := do
  if identity.isRoot then return none
  requireTransaction manager
  validateRole object role
  match ← getEntry manager identity object role with
  | some existing => return some existing
  | none =>
    let entry ← insertEntry manager identity object role
    propagateFrom manager entry
    return some entry

/-- Pass these entries on to a child object, as far as its class has their roles. -/
def passOn (manager : ManagerId) (childType : ObjectType) (child : ObjectRef) :
    List Entry → Action (List Entry)
  | [] => return []
  | parent :: parents => do
    let created ←
      if childType.allows parent.role then
        propagateToChild manager parent child parent.role .detach
      else pure none
    return created.toList ++ (← passOn manager childType child parents)

/-- Pass the grants on an object on to a child that was attached to it. -/
def createEntriesForChild (manager : ManagerId) (parent child : ObjectRef) :
    Action (List Entry) := do
  requireTransaction manager
  match (← get).registry.get? child.objectClass with
  | none => throw (.unknownObjectClass child.objectClass)
  | some childType => passOn manager childType child (← entries manager parent)

end BookingAccess.Manager
