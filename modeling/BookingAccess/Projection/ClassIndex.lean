/-
**Objects listed by class.**

An index holds a set of objects, sorted into a bucket of numbers for each class. It never keeps an
empty bucket, so a class without objects looks like a class it never heard of.

* `ids_insert`, `ids_erase`: what the two changes do to the numbers of a class.
-/

import BookingAccess.ObjectRef
import Std.Data.ExtTreeSet

namespace BookingAccess

structure ClassIndex where
  buckets : Std.ExtTreeMap ObjectClass (Std.ExtTreeSet Int)
deriving DecidableEq

namespace ClassIndex

def empty : ClassIndex := ⟨∅⟩

instance : Inhabited ClassIndex := ⟨empty⟩

/-- The numbers of the objects of one class. -/
def ids (index : ClassIndex) (objectClass : ObjectClass) : Std.ExtTreeSet Int :=
  index.buckets[objectClass]?.getD ∅

def insert (index : ClassIndex) (object : ObjectRef) : ClassIndex :=
  ⟨index.buckets.insert object.objectClass ((index.ids object.objectClass).insert object.id)⟩

def erase (index : ClassIndex) (object : ObjectRef) : ClassIndex :=
  let rest := (index.ids object.objectClass).erase object.id
  if rest.isEmpty then ⟨index.buckets.erase object.objectClass⟩
  else ⟨index.buckets.insert object.objectClass rest⟩

/-- The index with the object in it, or without it. -/
def set (index : ClassIndex) (object : ObjectRef) (present : Bool) : ClassIndex :=
  if present then index.insert object else index.erase object

/-! ### Members -/

theorem ids_empty (objectClass : ObjectClass) : empty.ids objectClass = ∅ := by
  simp [empty, ids]

theorem ids_insert (index : ClassIndex) (object : ObjectRef) (objectClass : ObjectClass) :
    (index.insert object).ids objectClass =
      if object.objectClass = objectClass then (index.ids objectClass).insert object.id
      else index.ids objectClass := by
  by_cases same : object.objectClass = objectClass
  · subst same
    simp [ids, insert]
  · simp [ids, insert, Std.ExtTreeMap.getElem?_insert, same]

theorem ids_erase (index : ClassIndex) (object : ObjectRef) (objectClass : ObjectClass) :
    (index.erase object).ids objectClass =
      if object.objectClass = objectClass then (index.ids objectClass).erase object.id
      else index.ids objectClass := by
  by_cases same : object.objectClass = objectClass
  · subst same
    rw [if_pos rfl, erase]
    by_cases last : ((index.ids object.objectClass).erase object.id).isEmpty = true
    · rw [if_pos last, Std.ExtTreeSet.isEmpty_iff.mp last]
      simp [ids]
    · rw [if_neg last]
      simp [ids]
  · rw [if_neg same, erase]
    split <;>
      simp [ids, Std.ExtTreeMap.getElem?_insert, Std.ExtTreeMap.getElem?_erase, same]

end ClassIndex

end BookingAccess
