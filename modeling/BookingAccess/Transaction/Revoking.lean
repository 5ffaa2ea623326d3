/-
**Revoking.**

An entry takes with it the child entries that were granted for it. A child that another entry was
its parent of as well stays. An entry that is a child itself is only deleted when it is detached
from its parents first.

* `Manager.deleteEntry`: one entry and what depends on it;
* `Manager.deleteEntriesForObject`: all entries on an object;
* `Manager.deleteEntriesForChild`: what a child object has from a parent object.
-/

import BookingAccess.Transaction.Basic

namespace BookingAccess.Manager

open Service

/-- What one call deleted, and which children it left because of another parent. -/
structure DeleteOutcome where
  deleted : List Entry
  retained : List Entry
deriving DecidableEq

namespace DeleteOutcome

def empty : DeleteOutcome := ⟨[], []⟩

instance : Inhabited DeleteOutcome := ⟨empty⟩

def append (first second : DeleteOutcome) : DeleteOutcome :=
  ⟨first.deleted ++ second.deleted, first.retained ++ second.retained⟩

def hasDeleted (outcome : DeleteOutcome) (id : EntryId) : Bool :=
  outcome.deleted.any (·.id == id)

end DeleteOutcome

/-- Cut an entry off from its parents, or fail where that is not wanted. -/
def leaveParents (entry : Entry) (detach : Bool) : Action Unit := do
  let parents ← .ofStore (StoreClient.dependenciesOfChild entry.id)
  if !parents.isEmpty then
    if !detach then throw (.referenced entry.id)
    parents.forM fun dependency =>
      .ofStore (StoreClient.deleteDependency dependency.parent dependency.child)

/-- Delete an entry from the store and record that in the transaction. -/
def removeEntry (manager : ManagerId) (entry : Entry) : Action Unit := do
  .ofStore (StoreClient.deleteEntry entry.id)
  record (.entryDeleted entry)
  changeWorkingSets manager (·.remove entry)

/-- Delete one child of a deleted entry, or leave it where another parent holds it. -/
def deleteChild (delete : Entry → Action DeleteOutcome) (parent child : Entry) :
    Action DeleteOutcome :=
  tryCatch (delete child) fun
    | .referenced _ => do
      record (.childRetained parent child)
      return ⟨[], [child]⟩
    | fault => throw fault

/-- Follow the dependencies on a deleted entry. Those that detach are passed over when the entry
was deleted with its children detached, and so are children that are gone already. -/
def deleteChildren (delete : Entry → Action DeleteOutcome) (parent : Entry) (detach : Bool) :
    List Dependency → Action DeleteOutcome
  | [] => return .empty
  | dependency :: dependencies => do
    let outcome ←
      if dependency.kind == .detach && detach then pure .empty
      else match ← .ofStore (StoreClient.getEntry dependency.child) with
        | none => pure .empty
        | some child => deleteChild delete parent child
    return outcome.append (← deleteChildren delete parent detach dependencies)

/-- Delete an entry and what depends on it, down to this depth. At depth zero there is no entry
left to delete. -/
def deleteTree : Nat → ManagerId → Bool → Entry → Action DeleteOutcome
  | 0, _, _, entry => throw (.storage (.entryNotFound entry.id))
  | depth + 1, manager, detach, entry => do
    leaveParents entry detach
    let children ← .ofStore (StoreClient.dependenciesOfParent entry.id)
    removeEntry manager entry
    let below ← deleteChildren (deleteTree depth manager false) entry detach children
    return ⟨entry :: below.deleted, below.retained⟩

/-- Delete an entry and what depends on it. Each step down deletes an entry, so there are no more
steps than entries. -/
def deleteFrom (manager : ManagerId) (detach : Bool) (entry : Entry) : Action DeleteOutcome := do
  deleteTree ((← get).store.entryCount + 1) manager detach entry

/-- Delete an entry and what depends on it. With `detach`, the entry may be a child itself, and
those of its own children that can be detached stay. -/
def deleteEntry (manager : ManagerId) (entry : Entry) (detach : Bool) : Action DeleteOutcome := do
  requireTransaction manager
  deleteFrom manager detach entry

/-- Delete these entries one after another, except for those that are gone by then. -/
def deleteEach (manager : ManagerId) (outcome : DeleteOutcome) :
    List Entry → Action DeleteOutcome
  | [] => return outcome
  | entry :: entries => do
    if (← isRemoved manager entry.id) || outcome.hasDeleted entry.id then
      deleteEach manager outcome entries
    else
      deleteEach manager (outcome.append (← deleteFrom manager true entry)) entries

/-- Delete every entry on an object, detached from its parents. -/
def deleteEntriesForObject (manager : ManagerId) (object : ObjectRef) :
    Action DeleteOutcome := do
  requireTransaction manager
  deleteEach manager .empty (← entries manager object)

/-- Delete the dependency between two entries, and the child entry if it has no parent left. -/
def deleteAttachment (manager : ManagerId) (dependency : Dependency) : Action DeleteOutcome := do
  .ofStore (StoreClient.deleteDependency dependency.parent dependency.child)
  if !(← .ofStore (StoreClient.dependenciesOfChild dependency.child)).isEmpty then return .empty
  match ← .ofStore (StoreClient.getEntry dependency.child) with
  | none => return .empty
  | some child => deleteFrom manager false child

/-- Delete those of the dependencies that come from entries on the parent object. -/
def deleteAttachments (manager : ManagerId) (parent : ObjectRef) :
    List Dependency → Action DeleteOutcome
  | [] => return .empty
  | dependency :: dependencies => do
    let outcome ← match ← entry manager dependency.parent with
      | none => pure .empty
      | some holder =>
        if holder.object == parent then deleteAttachment manager dependency else pure .empty
    return outcome.append (← deleteAttachments manager parent dependencies)

/-- Delete what a child object has from a parent object: the dependencies between their entries,
and the child entries that have no parent left. -/
def deleteEntriesForChild (manager : ManagerId) (parent child : ObjectRef) :
    Action DeleteOutcome := do
  requireTransaction manager
  deleteAttachments manager parent (← .ofStore (StoreClient.dependenciesInto child))

end BookingAccess.Manager
