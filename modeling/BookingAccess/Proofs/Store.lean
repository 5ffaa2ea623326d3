/-
**What the store holds.**

A store is numbered when it keeps every entry under its own number and has given out all numbers
that it uses. Then its lists name exactly the entries that it holds, and no two of them share a
number.

* `Store.Holds`, `Store.Agrees`: an entry is stored, or it does not contradict what is stored;
* `Numbered.mem_entryList`, `Numbered.mem_entriesOn`, `Numbered.mem_entriesOf`: the lists;
  `Numbered.pairwise_entriesOn`: their order.
-/

import BookingAccess.Proofs.OrderedMap
import BookingAccess.Store.Basic

namespace BookingAccess.Store

open OrderedMap

variable {store : Store} {entry : Entry}

/-- The store keeps an entry under its own number, and has given out all numbers that it uses. -/
def Numbered (store : Store) : Prop :=
  ∀ (id : EntryId) (entry : Entry), store.get? id = some entry → entry.id = id ∧ id ≤ store.lastId

/-- The store holds this entry. -/
def Holds (store : Store) (entry : Entry) : Prop := store.get? entry.id = some entry

/-- What the store holds under the number of this entry is the entry itself. -/
def Agrees (store : Store) (entry : Entry) : Prop :=
  ∀ stored, store.get? entry.id = some stored → stored = entry

theorem Holds.agrees (holds : store.Holds entry) : store.Agrees entry :=
  fun _ found => Option.some.inj (found.symm.trans holds)

/-- An entry that agrees with the store is stored if its number is. -/
theorem Agrees.holds (agrees : store.Agrees entry)
    (stored : (store.get? entry.id).isSome = true) : store.Holds entry := by
  obtain ⟨kept, found⟩ := Option.isSome_iff_exists.mp stored
  obtain rfl := agrees kept found
  exact found

theorem Holds.eq_of_id {other : Entry} (holds : store.Holds entry) (otherHeld : store.Holds other)
    (same : entry.id = other.id) : entry = other := by
  unfold Holds at holds otherHeld
  rw [same, otherHeld] at holds
  exact (Option.some.inj holds).symm

/-- What is stored depends on the entries only. -/
theorem holds_congr {after : Store} (same : after.entries = store.entries) :
    after.Holds entry ↔ store.Holds entry := by
  unfold Holds get?
  rw [same]

theorem mem_entryList_of_mem_entriesOn {object : ObjectRef}
    (listed : entry ∈ store.entriesOn object) : entry ∈ store.entryList :=
  (List.mem_filter.mp listed).1

theorem mem_entryList_of_mem_entriesOf {identities : List Identity}
    (listed : entry ∈ store.entriesOf identities) : entry ∈ store.entryList :=
  (List.mem_filter.mp listed).1

namespace Numbered

theorem holds (numbered : store.Numbered) {id : EntryId} (found : store.get? id = some entry) :
    store.Holds entry := by
  have same := (numbered id entry found).1
  subst same
  exact found

theorem mem_entryList (numbered : store.Numbered) :
    entry ∈ store.entryList ↔ store.Holds entry := by
  unfold entryList
  rw [mem_values_iff]
  exact ⟨fun ⟨_, found⟩ => numbered.holds found, fun holds => ⟨_, holds⟩⟩

theorem mem_entriesOn (numbered : store.Numbered) {object : ObjectRef} :
    entry ∈ store.entriesOn object ↔ store.Holds entry ∧ entry.object = object := by
  simp [entriesOn, numbered.mem_entryList]

theorem mem_entriesOf (numbered : store.Numbered) {identities : List Identity} :
    entry ∈ store.entriesOf identities ↔ store.Holds entry ∧ entry.identity ∈ identities := by
  simp [entriesOf, numbered.mem_entryList]

/-- Entries are listed in order of their numbers. -/
theorem pairwise_entriesOn (numbered : store.Numbered) (object : ObjectRef) :
    (store.entriesOn object).Pairwise fun first second => first.id < second.id := by
  refine (pairwise_values fun {first second entry other} found foundToo before => ?_).filter _
  obtain ⟨rfl, -⟩ := numbered first entry found
  obtain ⟨rfl, -⟩ := numbered second other foundToo
  exact Nat.compare_eq_lt.mp before

/-- Listed entries with the same number are the same. -/
theorem agree (numbered : store.Numbered) {entries : List Entry}
    (stored : ∀ entry ∈ entries, entry ∈ store.entryList) :
    ∀ first ∈ entries, ∀ second ∈ entries, first.id = second.id → first = second :=
  fun _ inFirst _ inSecond => Holds.eq_of_id (numbered.mem_entryList.mp (stored _ inFirst))
    (numbered.mem_entryList.mp (stored _ inSecond))

end Numbered

end BookingAccess.Store
