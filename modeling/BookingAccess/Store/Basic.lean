/-
**The store of entries.**

The store holds the entries under their numbers and the dependencies between them in the order in
which they were made. Numbers are given out in sequence and never again.

* `Store.createEntry`: no two entries grant the same;
* `Store.deleteEntry`: an entry goes together with every dependency that touches it;
* `Store.createDependency`: both ends have to be stored, and two entries are linked once at most.
-/

import BookingAccess.Entry

namespace BookingAccess

/-- Why the store refuses a call. -/
inductive StoreError
  | duplicateEntry (identity : Identity) (object : ObjectRef) (role : Role)
  | entryNotFound (id : EntryId)
  | duplicateDependency (parent child : EntryId)
  /-- The store cannot be reached. -/
  | internal (cause : String)
deriving DecidableEq

def StoreError.message : StoreError → String
  | .duplicateEntry identity object role =>
    s!"ACL entry for {identity.render} on {object.render} with role {role.name} already exists"
  | .entryNotFound id => s!"ACL entry {id} not found"
  | .duplicateDependency parent child => s!"ACL dependency #{parent} -> #{child} already exists"
  | .internal cause => s!"internal storage error: {cause}"

structure Store where
  /-- The last number given out. -/
  lastId : EntryId
  entries : Std.ExtTreeMap EntryId Entry
  dependencies : List Dependency
deriving DecidableEq

namespace Store

def empty : Store := ⟨0, ∅, []⟩

instance : Inhabited Store := ⟨empty⟩

/-! ### Entries -/

def entryCount (store : Store) : Nat := store.entries.size

def get? (store : Store) (id : EntryId) : Option Entry := store.entries[id]?

/-- All entries in order of their numbers. -/
def entryList (store : Store) : List Entry := store.entries.values

/-- The entry that grants exactly this. -/
def find? (store : Store) (identity : Identity) (object : ObjectRef) (role : Role) :
    Option Entry :=
  store.entryList.find? (·.grants identity object role)

def entriesOn (store : Store) (object : ObjectRef) : List Entry :=
  store.entryList.filter (·.object == object)

def entriesOf (store : Store) (identities : List Identity) : List Entry :=
  store.entryList.filter fun entry => identities.contains entry.identity

def createEntry (store : Store) (identity : Identity) (object : ObjectRef) (role : Role) :
    Except StoreError (Entry × Store) :=
  if (store.find? identity object role).isSome then
    .error (.duplicateEntry identity object role)
  else
    let id := store.lastId + 1
    let entry : Entry := ⟨id, identity, object, role⟩
    .ok (entry, { store with lastId := id, entries := store.entries.insert id entry })

/-- Delete the entry with this number and every dependency that touches it. -/
def deleteEntry (store : Store) (id : EntryId) : Except StoreError Store :=
  if store.entries.contains id then
    .ok { store with
      entries := store.entries.erase id
      dependencies := store.dependencies.filter fun dependency => !dependency.touches id }
  else .error (.entryNotFound id)

/-! ### Dependencies -/

def dependencyCount (store : Store) : Nat := store.dependencies.length

def findDependency? (store : Store) (parent child : EntryId) : Option Dependency :=
  store.dependencies.find? (·.links parent child)

def dependenciesOfParent (store : Store) (parent : EntryId) : List Dependency :=
  store.dependencies.filter (·.parent == parent)

def dependenciesOfChild (store : Store) (child : EntryId) : List Dependency :=
  store.dependencies.filter (·.child == child)

/-- The dependencies whose child entry is on the object. -/
def dependenciesInto (store : Store) (object : ObjectRef) : List Dependency :=
  store.dependencies.filter fun dependency =>
    (store.get? dependency.child).any (·.object == object)

def createDependency (store : Store) (dependency : Dependency) : Except StoreError Store :=
  if (store.findDependency? dependency.parent dependency.child).isSome then
    .error (.duplicateDependency dependency.parent dependency.child)
  else if !store.entries.contains dependency.parent then .error (.entryNotFound dependency.parent)
  else if !store.entries.contains dependency.child then .error (.entryNotFound dependency.child)
  else .ok { store with dependencies := store.dependencies ++ [dependency] }

/-- Delete the dependency between two entries; where there is none, nothing changes. -/
def deleteDependency (store : Store) (parent child : EntryId) : Store :=
  { store with
    dependencies := store.dependencies.filter fun dependency => !dependency.links parent child }

end Store

end BookingAccess
