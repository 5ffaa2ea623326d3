/-
**What a manager has added is stored.**

While nobody but one manager is called, the store holds what the manager has added in the open
transaction: a grant stores what it records, and a deletion takes what it deletes off the record. So
what a grant gives back is stored, whether the call has created it or has found it.

* `HoldsAdded`, `Coherent`: the store and the record of the manager;
* `Growing`: calls that grant keep both, and every entry;
* `ensures_createEntry`: the answer of a grant.
-/

import BookingAccess.Proofs.Transaction.Granting
import BookingAccess.Proofs.Transaction.WorkingSets

namespace BookingAccess.Manager

open Service Store OrderedMap

variable {manager : ManagerId} {before after service : Service}

/-- The store holds what the manager has added in the open transaction. -/
def HoldsAdded (manager : ManagerId) (service : Service) : Prop :=
  ∀ sets, service.transactions[manager]? = some sets →
    ∀ (id : EntryId) (entry : Entry), sets.added[id]? = some entry →
      service.store.get? id = some entry

/-- The store keeps entries under their numbers and dependencies between stored entries, and it
holds what the manager has added. -/
structure Coherent (manager : ManagerId) (service : Service) : Prop where
  numbered : service.store.Numbered
  anchored : service.store.Anchored
  added : HoldsAdded manager service

namespace HoldsAdded

/-- The transaction is the same and the entries are still there. -/
theorem mono (added : HoldsAdded manager before)
    (transactions : after.transactions[manager]? = before.transactions[manager]?)
    (kept : ∀ {id entry}, before.store.get? id = some entry → after.store.get? id = some entry) :
    HoldsAdded manager after := by
  unfold HoldsAdded
  rw [transactions]
  exact fun sets opened id entry found => kept (added sets opened id entry found)

theorem created {sets : WorkingSets} {entry : Entry} (added : HoldsAdded manager before)
    (numbered : before.store.Numbered) (created : Created manager sets entry before after)
    {identity : Identity} {object : ObjectRef} {role : Role}
    (result : before.store.createEntry identity object role = .ok (entry, after.store)) :
    HoldsAdded manager after := by
  intro later opened id other found
  rw [created.transactions, lookup_insert, if_pos rfl] at opened
  obtain rfl := Option.some.inj opened
  rw [get?_of_createEntry result]
  rcases WorkingSets.lookup_added_add found with ⟨same, rfl⟩ | earlier
  · exact if_pos same
  · have held := added sets created.opened id other earlier
    rw [if_neg, held]
    -- The new entry has the next number.
    intro same
    rw [← same, created.number, numbered.get?_next] at held
    exact nomatch held

/-- What is deleted is no longer on the record. -/
theorem removed {sets : WorkingSets} {entry : Entry} (added : HoldsAdded manager before)
    (removed : Removed manager sets entry before after) : HoldsAdded manager after := by
  intro later opened id other found
  rw [removed.transactions, lookup_insert, if_pos rfl] at opened
  obtain rfl := Option.some.inj opened
  obtain ⟨different, earlier⟩ := WorkingSets.lookup_added_remove found
  rw [get?_of_deleteEntry removed.result, if_neg different]
  exact added sets removed.opened id other earlier

end HoldsAdded

namespace Coherent

/-- What the manager sees is stored. -/
theorem holds (coherent : Coherent manager service) {entry : Entry}
    (seen : Sees manager service entry) : service.store.Holds entry := by
  rcases seen with holds | ⟨sets, opened, listed⟩
  · exact holds
  · obtain ⟨id, found⟩ := mem_values_iff.mp listed
    exact coherent.numbered.holds (coherent.added sets opened id entry found)

theorem steady (coherent : Coherent manager before) (steady : Steady before after) :
    Coherent manager after := by
  refine ⟨steady.store ▸ coherent.numbered, steady.store ▸ coherent.anchored, ?_⟩
  exact coherent.added.mono (by rw [steady.transactions]) fun found => by rwa [steady.store]

end Coherent

/-! ### Granting -/

/-- A coherent store goes on being one, and keeps its entries. -/
structure Growing (manager : ManagerId) (before after : Service) : Prop where
  isOpen : IsOpen manager before → IsOpen manager after
  coherent : Coherent manager before → Coherent manager after
  kept : Coherent manager before → ∀ entry, before.store.Holds entry → after.store.Holds entry

namespace Growing

instance : IsPreorder Service (Growing manager) where
  refl _ := ⟨id, id, fun _ _ => id⟩
  trans _ _ _ first second := ⟨second.isOpen ∘ first.isOpen, second.coherent ∘ first.coherent,
    fun coherent entry holds =>
      second.kept (first.coherent coherent) entry (first.kept coherent entry holds)⟩

theorem ofSteady (steady : Steady before after) : Growing manager before after where
  isOpen opened := by rwa [IsOpen, steady.transactions]
  coherent coherent := coherent.steady steady
  kept _ _ holds := steady.store ▸ holds

instance : KeptByReading (Growing manager) :=
  .mono fun _ _ => ofSteady

theorem ofCreated {sets : WorkingSets} {entry : Entry} {identity : Identity} {object : ObjectRef}
    {role : Role} (created : Created manager sets entry before after)
    (result : before.store.createEntry identity object role = .ok (entry, after.store)) :
    Growing manager before after where
  isOpen := (WriteStep.created created).isOpen
  coherent coherent := ⟨coherent.numbered.createEntry result, coherent.anchored.createEntry result,
    coherent.added.created coherent.numbered created result⟩
  kept coherent _ holds := (coherent.numbered.holds_createEntry result).mpr (.inr holds)

theorem linkEntries (parent child : Entry) (kind : DependencyKind) :
    Keeps (Growing manager) (linkEntries parent child kind) := by
  unfold Manager.linkEntries
  refine .bind (.ofStore (KeptByReading.storeRead _ _)) fun found => ?_
  split
  · refine .bind (.ofStore ?_) fun _ => KeptByReading.record _
    intro service
    refine (ensures_storeChange _ _).mono ?_ fun _ _ ⟨_, asked⟩ => asked ▸ .ofSteady ⟨rfl, rfl, rfl⟩
    rintro _ after ⟨store, result, rfl⟩
    obtain ⟨-, -, -, same⟩ := createDependency_eq_ok_iff.mp result
    have entries (id : EntryId) : store.get? id = service.store.get? id := by rw [same]; rfl
    refine ⟨id, fun coherent => ⟨?_, coherent.anchored.createDependency result, ?_⟩, ?_⟩
    · rw [same]
      exact coherent.numbered
    · exact coherent.added.mono rfl fun found => (entries _).trans found
    · exact fun _ entry holds => (entries _).trans holds
  · exact .pure

instance : KeptByGranting manager (Growing manager) where
  isOpen := Growing.isOpen
  insertEntry identity object role opened :=
    (ensures_insertEntry identity object role opened).mono
      (fun _ _ ⟨⟨_, created⟩, result⟩ => .ofCreated created result)
      fun _ _ ⟨_, steady⟩ => .ofSteady steady
  linkEntries := linkEntries

end Growing

theorem grows_insertEntry {identity : Identity} {object : ObjectRef} {role : Role}
    (coherent : Coherent manager service) (opened : IsOpen manager service) :
    Ensures (insertEntry manager identity object role) service
      (fun entry after => Growing manager service after ∧ after.store.Holds entry ∧
        entry.identity = identity ∧ entry.object = object ∧ entry.role = role)
      (fun _ => Growing manager service) := by
  refine (ensures_insertEntry identity object role opened).mono ?_
    fun _ _ ⟨_, steady⟩ => .ofSteady steady
  rintro entry after ⟨⟨sets, created⟩, result⟩
  have held := (coherent.numbered.holds_createEntry result).mpr (.inl rfl)
  refine ⟨.ofCreated created result, held, ?_⟩
  obtain ⟨-, rfl, -⟩ := createEntry_eq_ok_iff.mp result
  exact ⟨rfl, rfl, rfl⟩

/-- **What a grant gives back is stored**, and it grants what was asked for. -/
theorem ensures_createEntry {identity : Identity} {object : ObjectRef} {role : Role}
    (coherent : Coherent manager service) :
    Ensures (createEntry manager identity object role) service
      (fun answer after => Growing manager service after ∧ ∀ entry, answer = some entry →
        after.store.Holds entry ∧
          entry.identity = identity ∧ entry.object = object ∧ entry.role = role)
      (fun _ => Growing manager service) := by
  unfold createEntry
  split
  · exact ensures_pure.mpr ⟨refl _, fun _ never => nomatch never⟩
  refine ensures_bind.mpr (ensures_requireTransaction.mono ?_ fun _ _ same => same ▸ refl _)
  rintro _ service ⟨opened, rfl⟩
  have validates : KeepsAt (Growing manager) service (validateRole object role) :=
    keeps_validateRole object role service
  refine KeepsAt.ensuresBind validates.ensures fun _ checked toChecked _ => ?_
  have coherent := toChecked.coherent coherent
  refine KeepsAt.ensuresBind (ensures_getEntry coherent.numbered identity object role)
    fun found middle toMiddle finds => ?_
  split
  · rename_i existing
    obtain ⟨seen, grants⟩ := finds existing rfl
    refine ensures_pure.mpr ⟨refl _, fun entry same => ?_⟩
    obtain rfl := Option.some.inj same
    exact ⟨toMiddle.kept coherent _ (coherent.holds seen), grants⟩
  · have coherent := toMiddle.coherent coherent
    have opened := toMiddle.isOpen (toChecked.isOpen opened)
    refine KeepsAt.ensuresBind (grows_insertEntry coherent opened)
      fun entry later toLater ⟨holds, grants⟩ => ?_
    have below : KeepsAt (Growing manager) later (propagateFrom manager entry) :=
      KeepsAt.mono (keeps_propagateFrom entry later) fun _ grows => grows (toLater.isOpen opened)
    refine KeepsAt.ensuresBind below.ensures fun _ last toLast _ =>
      ensures_pure.mpr ⟨refl _, fun other same => ?_⟩
    obtain rfl := Option.some.inj same
    exact ⟨toLast.kept (toLater.coherent coherent) _ holds, grants⟩

end BookingAccess.Manager
