/-
**A manager alone with the store.**

While nobody but one manager changes the store, what its working sets say of the store is true: what
was added is stored, and what was removed is not. Every call of the manager keeps that, wherever it
fails, and so does whatever else happens, since no call reaches the transaction of another manager.

* `setsOf`: the working sets of the manager; `Settled`: the store and what they say of it; `Settles`:
  a call keeps that;
* `Calm.keeps`: so a call that nothing stands in the way of is followed by others;
* `SameTransaction`: a call leaves the transaction of another manager alone;
* `settled_of_run`, `calm_of_run`: the run of a manager that is alone with the store.
-/

import BookingAccess.Proofs.Transaction.Calm

namespace BookingAccess.Manager

open Service Store OrderedMap

variable {manager other : ManagerId} {before after start service : Service} {entry : Entry}
  {past : List Occurrence}

/-! ### The transactions of others -/

/-- The transaction of this manager is the same. -/
structure SameTransaction (other : ManagerId) (before after : Service) : Prop where
  transaction : after.transactions[other]? = before.transactions[other]?

namespace SameTransaction

instance : IsPreorder Service (SameTransaction other) where
  refl _ := ⟨rfl⟩
  trans _ _ _ first second := ⟨second.transaction.trans first.transaction⟩

theorem storeCall {α : Type} (kind : StoreCall) (answer : Store → Except StoreError (α × Store)) :
    Keeps (SameTransaction other) (StoreClient.call kind answer) := fun _ =>
  (ensures_storeCall kind answer).mono (fun _ _ ⟨_, _, asked⟩ => asked ▸ ⟨rfl⟩)
    fun _ _ ⟨_, asked⟩ => asked ▸ ⟨rfl⟩

theorem storeChange (kind : StoreCall) (answer : Store → Except StoreError Store) :
    Keeps (SameTransaction other) (StoreClient.change kind answer) :=
  storeCall kind _

theorem ofUntouched (untouched : Untouched before after) : SameTransaction other before after :=
  ⟨congrArg (·[other]?) untouched.transactions⟩

instance : KeptByCalling (SameTransaction other) :=
  .mono fun _ _ quiet => ofUntouched (.ofQuiet quiet)

/-- Another manager changes its own transaction only. -/
theorem ofOther (different : manager ≠ other) : KeptByManaging manager (SameTransaction other) :=
  .ofParts (fun _ _ _ => storeCall _ _) (fun _ => storeChange _ _) fun change service => by
    refine (ensures_changeWorkingSets change).mono ?_ ?_
    · rintro _ _ ⟨_, _, rfl⟩
      exact ⟨(lookup_insert ..).trans (if_neg different)⟩
    · rintro _ _ ⟨_, rfl⟩
      exact refl _

end SameTransaction

/-- A transaction that is not open is not opened. -/
def StaysClosed (manager : ManagerId) (before after : Service) : Prop :=
  before.transactions[manager]? = none → after.transactions[manager]? = none

namespace StaysClosed

instance : IsPreorder Service (StaysClosed manager) where
  refl _ := id
  trans _ _ _ first second := second ∘ first

theorem ofSame (same : SameTransaction manager before after) : StaysClosed manager before after :=
  same.transaction.trans

instance : KeptByCalling (StaysClosed manager) := .mono fun _ _ => ofSame

instance : KeptByManaging manager (StaysClosed manager) :=
  .ofParts (fun _ _ _ => (SameTransaction.storeCall _ _).mono fun _ _ => ofSame)
    (fun _ => (SameTransaction.storeChange _ _).mono fun _ _ => ofSame) fun change _ =>
      (ensures_changeWorkingSets change).mono
        (fun _ _ ⟨_, opened, _⟩ closed => nomatch closed.symm.trans opened)
        fun _ _ ⟨_, same⟩ => same ▸ id

end StaysClosed

/-! ### The store and the working sets -/

/-- The working sets of the manager, empty where no transaction is open. -/
def setsOf (manager : ManagerId) (service : Service) : WorkingSets :=
  service.transactions[manager]?.getD .empty

theorem setsOf_eq {sets : WorkingSets} (opened : service.transactions[manager]? = some sets) :
    setsOf manager service = sets := by
  rw [setsOf, opened]
  rfl

theorem setsOf_eq_empty (closed : service.transactions[manager]? = none) :
    setsOf manager service = .empty := by
  rw [setsOf, closed]
  rfl

theorem setsOf_insert {sets : WorkingSets}
    (changed : after.transactions = before.transactions.insert manager sets) :
    setsOf manager after = sets :=
  setsOf_eq (changed ▸ (lookup_insert ..).trans (if_pos rfl))

/-- What the working sets of the manager say of the store is true. -/
structure Settled (manager : ManagerId) (service : Service) : Prop where
  numbered : service.store.Numbered
  added : HoldsAdded manager service
  removed : LacksRemoved manager service

namespace Settled

/-- What was added is stored. -/
theorem stored {id : EntryId} (settled : Settled manager service)
    (added : (setsOf manager service).added[id]? = some entry) :
    service.store.get? id = some entry := by
  cases opened : service.transactions[manager]? with
  | none =>
    rw [setsOf_eq_empty opened] at added
    cases Std.ExtTreeMap.getElem?_empty.symm.trans added
  | some sets => exact settled.added sets opened id entry (setsOf_eq opened ▸ added)

/-- Without a transaction there is nothing to be said. -/
theorem ofClosed (numbered : service.store.Numbered)
    (closed : service.transactions[manager]? = none) : Settled manager service :=
  ⟨numbered, fun _ opened => (nomatch closed.symm.trans opened),
    fun _ opened => (nomatch closed.symm.trans opened)⟩

/-- A transaction that has done nothing yet says nothing either. -/
theorem ofOpened (numbered : service.store.Numbered) :
    Settled manager (opened manager service) := by
  have isEmpty {sets : WorkingSets}
      (found : (opened manager service).transactions[manager]? = some sets) : sets = .empty :=
    Option.some.inj (found.symm.trans ((lookup_insert ..).trans (if_pos rfl)))
  refine ⟨numbered, fun sets found id entry added => ?_, fun sets found id entry removed => ?_⟩
  · cases Std.ExtTreeMap.getElem?_empty.symm.trans (isEmpty found ▸ added)
  · cases Std.ExtTreeMap.getElem?_empty.symm.trans (isEmpty found ▸ removed)

/-- The transaction and the entries are the same. -/
theorem mono (settled : Settled manager before) (same : SameTransaction manager before after)
    (numbered : after.store.Numbered) (entries : ∀ id, after.store.get? id = before.store.get? id) :
    Settled manager after where
  numbered := numbered
  added := settled.added.mono same.transaction fun found => (entries _).trans found
  removed sets opened id entry found :=
    (entries id).trans (settled.removed sets (same.transaction.symm.trans opened) id entry found)

theorem untouched (settled : Settled manager before) (untouched : Untouched before after) :
    Settled manager after :=
  settled.mono (.ofUntouched untouched) (untouched.numbered settled.numbered) untouched.get?

theorem steady (settled : Settled manager before) (steady : Steady before after) :
    Settled manager after := settled.untouched (.ofSteady steady)

end Settled

/-- A call keeps what the working sets say of the store true. -/
def Settles (manager : ManagerId) (before after : Service) : Prop :=
  Settled manager before → Settled manager after

namespace Settles

instance : IsPreorder Service (Settles manager) where
  refl _ := id
  trans _ _ _ first second := second ∘ first

theorem ofSteady (steady : Steady before after) : Settles manager before after :=
  fun settled => settled.steady steady

instance : KeptByCalling (Settles manager) :=
  .mono fun _ _ quiet settled => settled.untouched (.ofQuiet quiet)

/-- Without a transaction it is enough that none is opened. -/
theorem ofClosed {α : Type} {action : Action α} (closed : service.transactions[manager]? = none)
    (numbered : Keeps (Stays Numbered) action) (stays : Keeps (StaysClosed manager) action) :
    KeepsAt (Settles manager) service action :=
  ((numbered service).and (stays service)).mono
    (fun _ _ ⟨numbered, stays⟩ settled => .ofClosed (numbered settled.numbered) (stays closed))
    fun _ _ ⟨numbered, stays⟩ settled => .ofClosed (numbered settled.numbered) (stays closed)

instance : KeptByManaging manager (Settles manager) where
  insertEntry identity object role service := by
    cases opened : service.transactions[manager]? with
    | none =>
      exact ofClosed opened (KeptByManaging.insertEntry identity object role)
        (KeptByManaging.insertEntry identity object role)
    | some sets =>
      refine (ensures_insertEntry identity object role (isOpen_of_some opened)).mono ?_
        fun _ _ ⟨_, steady⟩ => ofSteady steady
      rintro entry after ⟨⟨_, created⟩, result⟩ settled
      exact ⟨settled.numbered.createEntry result,
        settled.added.created settled.numbered created result, settled.removed.created created⟩
  removeEntry entry service := by
    cases opened : service.transactions[manager]? with
    | none =>
      exact ofClosed opened (KeptByManaging.removeEntry entry) (KeptByManaging.removeEntry entry)
    | some sets =>
      refine (ensures_removeEntry (isOpen_of_some opened)).mono ?_
        fun _ _ ⟨_, steady⟩ => ofSteady steady
      rintro _ after ⟨_, removed⟩ settled
      exact ⟨settled.numbered.deleteEntry removed.result, settled.added.removed removed,
        settled.removed.removed removed⟩

end Settles

/-- **A call that nothing stands in the way of** leaves nothing in the way of the next. -/
theorem Calm.keeps {α : Type} {action : Action α} {good : α → Service → Prop}
    {bad : AccessError → Service → Prop} (calm : Calm manager service)
    (settles : KeepsAt (Settles manager) service action)
    (stays : KeepsAt (Stays Intact) service action)
    (free : Ensures action service (fun value after => Unhindered manager after ∧ good value after)
      bad) :
    Ensures action service (fun value after => Calm manager after ∧ good value after) bad := by
  refine (free.and (settles.and stays)).mono ?_ fun _ _ failed => failed.1
  rintro value after ⟨⟨free, ensured⟩, settles, stays⟩
  obtain ⟨-, added, removed⟩ := settles ⟨calm.intact.numbered, calm.added, calm.removed⟩
  exact ⟨⟨free.reachable, free.opened, stays calm.intact, added, removed⟩, ensured⟩

/-! ### Runs -/

/-- What a manager does between beginning and end. -/
theorem Settles.task {caller : ManagerId} {task : Task} {occurrence : Occurrence}
    (spares : occurrence.OthersSpareStore manager)
    (called : occurrence.event = .call (.manage caller task)) (inside : task.isBoundary = false) :
    Settles manager occurrence.before occurrence.after := by
  by_cases own : caller = manager
  · subst own
    rw [Occurrence.after_eq_of_task called]
    exact (Task.manages inside).after occurrence.before
  · -- Another manager is given no say here, and does not reach the transaction.
    have := SameTransaction.ofOther own
    have same : SameTransaction manager occurrence.before occurrence.after :=
      Occurrence.after_eq_of_task called ▸ (Task.manages inside).after occurrence.before
    have store := spares fun task own' => own (Call.manage.inj (Event.call.inj
      (called.symm.trans own'))).1
    exact fun settled => settled.mono same (store ▸ settled.numbered) fun _ => by rw [store]

/-- Whatever happens while the manager is alone with the store. -/
theorem Settles.event {occurrence : Occurrence} (spares : occurrence.OthersSpareStore manager) :
    Settles manager occurrence.before occurrence.after := by
  intro settled
  cases kind_of_event occurrence with
  | steady steady => exact settled.steady steady
  | opened caller _ absent steady =>
    refine Settled.steady ?_ steady
    by_cases own : caller = manager
    · exact own ▸ .ofOpened settled.numbered
    · exact settled.mono ⟨(lookup_insert ..).trans (if_neg own)⟩ settled.numbered fun _ => rfl
  | closed caller steady =>
    refine Settled.steady ?_ steady
    have erased : (closed caller occurrence.before).transactions[manager]? =
        if caller = manager then none else occurrence.before.transactions[manager]? :=
      lookup_erase ..
    split at erased
    · exact .ofClosed settled.numbered erased
    · exact settled.mono ⟨erased⟩ settled.numbered fun _ => rfl
  | granting caller task called isGrant =>
    exact Settles.task spares called
      (by cases task <;> first | rfl | exact nomatch isGrant) settled
  | revoking caller task deletion called isDeletion =>
    exact Settles.task spares called
      (by cases task <;> first | rfl | exact nomatch isDeletion) settled

theorem settled_of_run (run : Run (·.OthersSpareStore manager) start past service)
    (settled : Settled manager start) : Settled manager service := by
  induction run with
  | start => exact settled
  | next event _ spares ih => exact Settles.event spares ih

/-- **A manager that is alone with an intact store has nothing in its way** once its transaction is
open and no collaborator fails. -/
theorem calm_of_run (intact : start.store.Intact) (idle : start.transactions[manager]? = none)
    (run : Run (·.OthersSpareStore manager) start past service) (opened : IsOpen manager service)
    (reachable : service.outages = .none) : Calm manager service :=
  have settled := settled_of_run run (.ofClosed intact.numbered idle)
  ⟨reachable, opened, Stays.run run intact, settled.added, settled.removed⟩

end BookingAccess.Manager
