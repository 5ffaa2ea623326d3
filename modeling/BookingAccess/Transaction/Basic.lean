/-
**Transactions.**

A manager changes grants inside a transaction. The store is changed at once; the cache follows when
the transaction is committed, so that what others are told changes only then.

* `Manager.begin`, `Manager.commit`, `Manager.rollback`;
* `Manager.getEntry`, `Manager.entry`, `Manager.entries`: entries as the open transaction sees them.
-/

import BookingAccess.Service.Projections

namespace BookingAccess.Manager

open Service

/-! ### Beginning and ending -/

def isActive (manager : ManagerId) : Action Bool := do
  return (← get).transactions.contains manager

def begin (manager : ManagerId) : Action Unit := do
  if ← isActive manager then throw .transactionActive
  modify fun service =>
    { service with transactions := service.transactions.insert manager .empty }

/-- The working sets of the open transaction. -/
def workingSets (manager : ManagerId) : Action WorkingSets := do
  match (← get).transactions[manager]? with
  | some sets => return sets
  | none => throw .noTransaction

/-- Fails where no transaction is open. -/
def requireTransaction (manager : ManagerId) : Action Unit := do
  let _ ← workingSets manager

/-- Take the working sets away: the transaction is over. -/
def close (manager : ManagerId) : Action WorkingSets := do
  let sets ← workingSets manager
  modify fun service => { service with transactions := service.transactions.erase manager }
  return sets

/-- Work the additions, then the removals and the cancelled entries, into the cache. A failure
leaves the cache partly updated and the transaction closed. -/
def commit (manager : ManagerId) : Action Unit := do
  let sets ← close manager
  sets.added.values.forM applyAddition
  sets.removed.values.forM applyRemoval
  sets.cancelled.values.forM applyRemoval
  record (.transactionCommitted sets.added.size sets.removed.size)

/-- Forget the working sets. What the transaction did to the store is left to the store to undo. -/
def rollback (manager : ManagerId) : Action Unit := do
  let _ ← close manager

def changeWorkingSets (manager : ManagerId) (change : WorkingSets → WorkingSets) :
    Action Unit := do
  let sets ← workingSets manager
  modify fun service =>
    { service with transactions := service.transactions.insert manager (change sets) }

/-! ### Reading -/

/-- The working sets, empty where no transaction is open. -/
def currentSets (manager : ManagerId) : Action WorkingSets := do
  return (← get).transactions[manager]?.getD .empty

/-- Has the open transaction removed the entry with this number? -/
def isRemoved (manager : ManagerId) (id : EntryId) : Action Bool := do
  return (← currentSets manager).removed.contains id

/-- The entry that grants exactly this. -/
def getEntry (manager : ManagerId) (identity : Identity) (object : ObjectRef) (role : Role) :
    Action (Option Entry) := do
  let sets ← currentSets manager
  match sets.added.values.find? (·.grants identity object role) with
  | some entry => return some entry
  | none =>
    let stored ← .ofStore (StoreClient.findEntry identity object role)
    return stored.filter fun entry => !sets.removed.contains entry.id

/-- The entry with this number: added by the transaction, or in the cache, or in the store. -/
def entry (manager : ManagerId) (id : EntryId) : Action (Option Entry) := do
  let sets ← currentSets manager
  match sets.added[id]? with
  | some entry => return some entry
  | none =>
    if sets.removed.contains id then return none
    match (← get).cache.entries[id]? with
    | some entry => return some entry
    | none => .ofStore (StoreClient.getEntry id)

/-- The entries on an object. -/
def entries (manager : ManagerId) (object : ObjectRef) : Action (List Entry) := do
  let sets ← currentSets manager
  let stored := (← .ofStore (StoreClient.entriesOn object)).filter fun entry =>
    !sets.removed.contains entry.id
  let unseen := sets.added.values.filter fun entry =>
    entry.object == object && !stored.any (·.id == entry.id)
  return stored ++ unseen

end BookingAccess.Manager
