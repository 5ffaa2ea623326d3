/-
**Entries and dependencies.**

An entry grants one role on one object to one identity. A dependency says that a child entry was
granted because of a parent entry, and what becomes of the child when the parent goes.
-/

import BookingAccess.Identity
import BookingAccess.ObjectRef

namespace BookingAccess

/-- The store counts entries from 1 without bound, which agrees with counting in 64 bits as long as
fewer than 2^64 entries have been created. -/
abbrev EntryId := Nat

/-- A grant of a role on an object, under the number that the store gave it. -/
structure Entry where
  id : EntryId
  identity : Identity
  object : ObjectRef
  role : Role
deriving DecidableEq, Inhabited

namespace Entry

/-- Does the entry grant exactly this? -/
def grants (entry : Entry) (identity : Identity) (object : ObjectRef) (role : Role) : Bool :=
  entry.identity == identity && entry.object == object && entry.role == role

def render (entry : Entry) : String :=
  s!"#{entry.id} {entry.identity.render} {entry.object.render}#{entry.role.name}"

@[simp] theorem grants_iff (entry : Entry) (identity : Identity) (object : ObjectRef)
    (role : Role) :
    entry.grants identity object role = true ↔
      entry.identity = identity ∧ entry.object = object ∧ entry.role = role := by
  simp [grants, and_assoc]

end Entry

/-- What happens to a child entry when its parent entry is deleted. -/
inductive DependencyKind
  /-- The child always goes with the parent. -/
  | cascade
  /-- The child stays when the parent is deleted with its children detached. -/
  | detach
deriving DecidableEq, Inhabited

def DependencyKind.render : DependencyKind → String
  | .cascade => "cascade"
  | .detach => "detach"

/-- The child entry exists because of the parent entry. -/
structure Dependency where
  parent : EntryId
  child : EntryId
  kind : DependencyKind
deriving DecidableEq, Inhabited

namespace Dependency

/-- Does the dependency run between these two entries? -/
def links (dependency : Dependency) (parent child : EntryId) : Bool :=
  dependency.parent == parent && dependency.child == child

/-- Is the entry one of the two ends? -/
def touches (dependency : Dependency) (id : EntryId) : Bool :=
  dependency.parent == id || dependency.child == id

def render (dependency : Dependency) : String :=
  s!"#{dependency.parent} -> #{dependency.child} ({dependency.kind.render})"

@[simp] theorem links_iff (dependency : Dependency) (parent child : EntryId) :
    dependency.links parent child = true ↔
      dependency.parent = parent ∧ dependency.child = child := by
  simp [links]

@[simp] theorem touches_iff (dependency : Dependency) (id : EntryId) :
    dependency.touches id = true ↔ dependency.parent = id ∨ dependency.child = id := by
  simp [touches]

end Dependency

end BookingAccess
