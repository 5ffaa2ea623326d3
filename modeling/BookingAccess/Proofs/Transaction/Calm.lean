/-
**While nothing stands in the way.**

Every collaborator can be reached, the transaction is open, the store is intact and nobody but the
manager changes it, so what the working sets say of it is true. Then no step of a call fails for any
reason but its own, and each does exactly what it is there for.

* `Unhindered`: what it takes for a call not to be refused; `Calm`: the whole state of affairs,
  which every step of a grant keeps;
* `Still`: nothing happened but that a question was put or an event recorded;
* `answered_getEntry`, `answered_entries`: the manager finds the entries that the store holds;
* `calm_insertEntry`, `answered_linkEntries`, `unhindered_removeEntry`: what the steps do to the
  store.
-/

import BookingAccess.Proofs.Store.Spreading
import BookingAccess.Proofs.Transaction.Holding
import BookingAccess.Proofs.Transaction.Surroundings

namespace BookingAccess.Manager

open Service Store OrderedMap

variable {manager : ManagerId} {before middle after service : Service} {entry : Entry}

/-- The store does not hold what the manager has removed in the open transaction. -/
def LacksRemoved (manager : ManagerId) (service : Service) : Prop :=
  ∀ sets, service.transactions[manager]? = some sets →
    ∀ (id : EntryId) (entry : Entry), sets.removed[id]? = some entry →
      service.store.get? id = none

/-- No collaborator fails and the transaction is open. -/
structure Unhindered (manager : ManagerId) (service : Service) : Prop where
  reachable : service.outages = .none
  opened : IsOpen manager service
  numbered : service.store.Numbered

/-- Nothing stands in the way of the manager. -/
structure Calm (manager : ManagerId) (service : Service) : Prop where
  reachable : service.outages = .none
  opened : IsOpen manager service
  intact : service.store.Intact
  added : HoldsAdded manager service
  removed : LacksRemoved manager service

theorem Calm.unhindered (calm : Calm manager service) : Unhindered manager service :=
  ⟨calm.reachable, calm.opened, calm.intact.numbered⟩

/-! ### Questions -/

/-- Nothing is different but the count of calls and the audit trail. -/
structure Still (before after : Service) : Prop extends SameSurroundings before after where
  store : after.store = before.store
  transactions : after.transactions = before.transactions

instance : IsPreorder Service Still where
  refl _ := ⟨refl _, rfl, rfl⟩
  trans _ _ _ first second := ⟨IsTrans.trans _ _ _ first.toSameSurroundings
    second.toSameSurroundings, second.store.trans first.store,
    second.transactions.trans first.transactions⟩

theorem Still.asked (service : Service) :
    Still service { service with calls := service.calls + 1 } :=
  ⟨⟨rfl, rfl, rfl, rfl, rfl⟩, rfl, rfl⟩

theorem Still.recorded (service : Service) (event : AuditEvent) :
    Still service { service with trail := event :: service.trail } :=
  ⟨⟨rfl, rfl, rfl, rfl, rfl⟩, rfl, rfl⟩

theorem Still.steady (still : Still before after) : Steady before after :=
  ⟨still.store, still.registry, still.transactions⟩

theorem Calm.steady (calm : Calm manager before) (steady : Steady before after)
    (world : SameWorld before after) : Calm manager after where
  reachable := world.outages.trans calm.reachable
  opened := by rw [IsOpen, steady.transactions]; exact calm.opened
  intact := steady.store ▸ calm.intact
  added := calm.added.mono (by rw [steady.transactions]) fun found => by rwa [steady.store]
  removed sets opened id entry found := by
    rw [steady.store]
    exact calm.removed sets (steady.transactions ▸ opened) id entry found

theorem Calm.still (calm : Calm manager before) (still : Still before after) :
    Calm manager after :=
  calm.steady ⟨still.store, still.registry, still.transactions⟩ ⟨still.graph, still.outages⟩

theorem Unhindered.still (free : Unhindered manager before) (still : Still before after) :
    Unhindered manager after where
  reachable := still.outages.trans free.reachable
  opened := by rw [IsOpen, still.transactions]; exact free.opened
  numbered := still.store ▸ free.numbered

/-- A call of the store that is answered fails only where the store refuses. -/
theorem ensures_answered {α : Type} {kind : StoreCall}
    {answer : Store → Except StoreError (α × Store)}
    (answers : service.outages.store service.calls kind = none) :
    Ensures (StoreClient.call kind answer) service
      (fun value after => ∃ store, answer service.store = .ok (value, store) ∧
        after = { service with calls := service.calls + 1, store := store })
      (fun fault after => answer service.store = .error fault ∧
        after = { service with calls := service.calls + 1 }) := by
  unfold StoreClient.call
  simp only [ensures_bind, ensures_get, ensures_set, answers, ensures_mk_pure]
  cases result : answer service.store with
  | error fault => exact ⟨rfl, trivial⟩
  | ok pair => exact ⟨pair.2, rfl, rfl⟩

theorem answered_read {α : Type} {kind : StoreCall} {answer : Store → α}
    (answers : service.outages.store service.calls kind = none) :
    Ensures (Action.ofStore (StoreClient.read kind answer)) service
      (fun value after => value = answer service.store ∧ Still service after)
      (fun _ _ => False) := by
  refine ensures_ofStore.mpr ((ensures_answered answers).mono ?_ ?_)
  · rintro value after ⟨store, answered, rfl⟩
    obtain ⟨rfl, rfl⟩ := Prod.mk.inj (Except.ok.inj answered)
    exact ⟨rfl, .asked service⟩
  · rintro fault after ⟨refused, -⟩
    exact nomatch refused

/-- As long as no collaborator fails, each call is answered. -/
theorem answers_of_reachable (reachable : service.outages = .none) (kind : StoreCall) :
    service.outages.store service.calls kind = none := by
  rw [reachable]
  rfl

theorem reachable_read {α : Type} {kind : StoreCall} {answer : Store → α}
    (reachable : service.outages = .none) :
    Ensures (Action.ofStore (StoreClient.read kind answer)) service
      (fun value after => value = answer service.store ∧ Still service after)
      (fun _ _ => False) :=
  answered_read (answers_of_reachable reachable kind)

/-- A change that the store does not refuse. -/
theorem reachable_change {kind : StoreCall} {answer : Store → Except StoreError Store}
    {store : Store} (reachable : service.outages = .none)
    (answered : answer service.store = .ok store) :
    Ensures (Action.ofStore (StoreClient.change kind answer)) service
      (fun _ after => after = { service with calls := service.calls + 1, store := store })
      (fun _ _ => False) := by
  refine ensures_ofStore.mpr
    ((ensures_answered (answers_of_reachable reachable kind)).mono ?_ ?_)
  · rintro value after ⟨changed, result, rfl⟩
    rw [answered] at result
    obtain rfl : store = changed := (Prod.mk.inj (Except.ok.inj result)).2
    rfl
  · rintro fault after ⟨refused, -⟩
    rw [answered] at refused
    exact nomatch refused

/-- A change that the store refuses. -/
theorem reachable_refused {kind : StoreCall} {answer : Store → Except StoreError Store}
    {cause : StoreError} (reachable : service.outages = .none)
    (refused : answer service.store = .error cause) :
    Ensures (Action.ofStore (StoreClient.change kind answer)) service (fun _ _ => False)
      (fun fault after => fault = .storage cause ∧ Still service after) := by
  refine ensures_ofStore.mpr
    ((ensures_answered (answers_of_reachable reachable kind)).mono ?_ ?_)
  · rintro _ _ ⟨_, result, -⟩
    rw [refused] at result
    exact nomatch result
  · rintro fault after ⟨result, rfl⟩
    rw [refused] at result
    exact ⟨congrArg _ (Except.error.inj result).symm, .asked service⟩

theorem opened_requireTransaction (opened : IsOpen manager service) :
    Ensures (requireTransaction manager) service (fun _ after => after = service)
      (fun _ _ => False) := by
  unfold requireTransaction
  simp only [ensures_bind, ensures_pure]
  refine ensures_workingSets.mono (fun _ _ => And.right) ?_
  rintro _ _ ⟨-, closed, -⟩
  rw [IsOpen, closed] at opened
  cases opened

theorem calm_children {object : ObjectRef} {relation : String} (calm : Calm manager service) :
    Ensures (Action.ofStore (GraphClient.children object relation)) service
      (fun children after => children = service.graph.children object relation ∧
        Still service after)
      (fun _ _ => False) := by
  have answers : service.outages.graph service.calls = none := by rw [calm.reachable]; rfl
  unfold GraphClient.children
  simp only [ensures_ofStore, ensures_bind, ensures_get, ensures_set, answers, ensures_pure]
  exact ⟨trivial, .asked service⟩

theorem find?_of_holds (intact : before.store.Intact) (holds : before.store.Holds entry) :
    before.store.find? entry.identity entry.object entry.role = some entry := by
  cases found : before.store.find? entry.identity entry.object entry.role with
  | none =>
    exact absurd ⟨rfl, rfl, rfl⟩ (intact.numbered.find?_eq_none_iff.mp found entry holds)
  | some other =>
    obtain ⟨listed, sameIdentity, sameObject, sameRole⟩ := mem_of_find?_grants found
    rw [intact.once (intact.numbered.mem_entryList.mp listed) holds sameIdentity sameObject
      sameRole]

/-- What the store holds was not removed. -/
theorem LacksRemoved.contains_eq_false (lacks : LacksRemoved manager service)
    (holds : service.store.Holds entry) :
    (service.transactions[manager]?.getD .empty).removed.contains entry.id = false := by
  rw [Std.ExtTreeMap.contains_eq_isSome_getElem?]
  cases opened : service.transactions[manager]? with
  | none => exact congrArg Option.isSome Std.ExtTreeMap.getElem?_empty
  | some sets =>
    show sets.removed[entry.id]?.isSome = false
    cases removed : sets.removed[entry.id]? with
    | none => rfl
    | some other => cases (lacks sets opened entry.id other removed).symm.trans holds

/-- **The manager finds the entry that the store holds**, whatever its working sets are, if what
they say of the store is true. -/
theorem answered_getEntry (identity : Identity) (object : ObjectRef) (role : Role)
    (answers : service.outages.store service.calls .findEntry = none)
    (intact : service.store.Intact) (added : HoldsAdded manager service)
    (removed : LacksRemoved manager service) :
    Ensures (getEntry manager identity object role) service
      (fun found after => found = service.store.find? identity object role ∧ Still service after)
      (fun _ _ => False) := by
  unfold getEntry currentSets
  simp only [ensures_bind, ensures_get, ensures_pure]
  split
  · rename_i entry found
    obtain ⟨isAdded, rfl, rfl, rfl⟩ := mem_of_find?_grants found
    have holds : service.store.Holds entry :=
      Coherent.holds ⟨intact.numbered, intact.anchored, added⟩ (sees_of_added isAdded)
    exact ensures_pure.mpr ⟨(find?_of_holds intact holds).symm, refl _⟩
  · simp only [ensures_bind, ensures_pure]
    refine (answered_read answers).mono ?_ fun _ _ => id
    rintro stored after ⟨rfl, still⟩
    refine ⟨?_, still⟩
    cases found : service.store.find? identity object role with
    | none => rfl
    | some entry =>
      have holds := intact.numbered.mem_entryList.mp (mem_of_find?_grants found).1
      refine Option.filter_eq_some_iff.mpr ⟨rfl, ?_⟩
      rw [removed.contains_eq_false holds]
      rfl

theorem calm_getEntry {identity : Identity} {object : ObjectRef} {role : Role}
    (calm : Calm manager service) :
    Ensures (getEntry manager identity object role) service
      (fun found after => found = service.store.find? identity object role ∧ Still service after)
      (fun _ _ => False) :=
  answered_getEntry identity object role (answers_of_reachable calm.reachable _) calm.intact
    calm.added calm.removed

/-- **The manager lists the entries that the store holds**, and nothing more: what was added is
stored, and what was removed is not. -/
theorem answered_entries (object : ObjectRef)
    (answers : service.outages.store service.calls .listEntriesByObject = none)
    (intact : service.store.Intact) (added : HoldsAdded manager service)
    (removed : LacksRemoved manager service) :
    Ensures (entries manager object) service
      (fun listed after => listed = service.store.entriesOn object ∧ Still service after)
      (fun _ _ => False) := by
  have numbered := intact.numbered
  unfold entries currentSets
  simp only [ensures_bind, ensures_get, ensures_pure]
  refine (answered_read answers).mono ?_ fun _ _ => id
  rintro _ after ⟨rfl, still⟩
  refine ⟨?_, still⟩
  have stored : (service.store.entriesOn object).filter (fun entry =>
      !(service.transactions[manager]?.getD .empty).removed.contains entry.id) =
        service.store.entriesOn object := by
    refine List.filter_eq_self.mpr fun entry listed => ?_
    rw [removed.contains_eq_false (numbered.mem_entriesOn.mp listed).1]
    rfl
  have unseen : (service.transactions[manager]?.getD .empty).added.values.filter (fun entry =>
      entry.object == object && !(service.store.entriesOn object).any (·.id == entry.id)) = [] := by
    refine List.filter_eq_nil_iff.mpr fun entry isAdded => ?_
    have holds : service.store.Holds entry :=
      Coherent.holds ⟨numbered, intact.anchored, added⟩ (sees_of_added isAdded)
    rintro isUnseen
    obtain ⟨onObject, notListed⟩ := Bool.and_eq_true_iff.mp isUnseen
    have listed := numbered.mem_entriesOn.mpr ⟨holds, beq_iff_eq.mp onObject⟩
    have isListed : (service.store.entriesOn object).any (·.id == entry.id) = true :=
      List.any_eq_true.mpr ⟨entry, listed, beq_iff_eq.mpr rfl⟩
    rw [isListed] at notListed
    cases notListed
  rw [stored, unseen, List.append_nil]

/-! ### Changes -/

theorem LacksRemoved.created {sets : WorkingSets} (removed : LacksRemoved manager before)
    (created : Created manager sets entry before after) : LacksRemoved manager after := by
  intro later opened id other found
  rw [created.transactions, lookup_insert, if_pos rfl] at opened
  obtain rfl := Option.some.inj opened
  obtain ⟨different, earlier⟩ := WorkingSets.lookup_removed_add found
  rw [created.lookup, if_neg different]
  exact removed sets created.opened id other earlier

theorem LacksRemoved.removed {sets : WorkingSets} (lacks : LacksRemoved manager before)
    (removed : Removed manager sets entry before after) : LacksRemoved manager after := by
  intro later opened id other found
  rw [removed.transactions, lookup_insert, if_pos rfl] at opened
  obtain rfl := Option.some.inj opened
  rw [get?_of_deleteEntry removed.result]
  split
  · rfl
  · rename_i different
    have earlier := (WorkingSets.lookup_removed_remove found).resolve_left different
    exact lacks sets removed.opened id other earlier

/-- A change of the store that leaves its entries alone. -/
theorem Calm.restored (calm : Calm manager service) {store : Store} (intact : store.Intact)
    (entries : ∀ id, store.get? id = service.store.get? id) :
    Calm manager { service with calls := service.calls + 1, store := store } where
  reachable := calm.reachable
  opened := calm.opened
  intact := intact
  added := calm.added.mono rfl fun found => (entries _).trans found
  removed sets opened id entry found :=
    (entries id).trans (calm.removed sets opened id entry found)

theorem unhindered_deleteDependency {parent child : EntryId} (free : Unhindered manager service) :
    Ensures (Action.ofStore (StoreClient.deleteDependency parent child)) service
      (fun _ after => after.store = service.store.deleteDependency parent child ∧
        Unhindered manager after)
      (fun _ _ => False) := by
  have answered : (fun store => .ok (store.deleteDependency parent child) :
      Store → Except StoreError Store) service.store =
        .ok (service.store.deleteDependency parent child) := rfl
  refine (reachable_change free.reachable answered).mono ?_ fun _ _ => id
  rintro _ _ rfl
  exact ⟨rfl, free.reachable, free.opened, free.numbered⟩

/-- A new entry can be stored where there was none that grants the same. -/
theorem reachable_insertEntry {identity : Identity} {object : ObjectRef} {role : Role}
    (reachable : service.outages = .none) (opened : IsOpen manager service)
    (absent : service.store.find? identity object role = none) :
    Ensures (insertEntry manager identity object role) service (fun _ _ => True)
      (fun _ _ => False) := by
  unfold insertEntry changeWorkingSets
  simp only [ensures_bind, ensures_ofStore, ensures_record, ensures_modify, ensures_pure]
  refine (ensures_answered (answers_of_reachable reachable _)).mono ?_ ?_
  · rintro entry middle ⟨store, result, rfl⟩
    refine ensures_workingSets.mono (fun _ _ _ => trivial) ?_
    rintro _ _ ⟨-, closed, -⟩
    rw [IsOpen, show service.transactions[manager]? = none from closed] at opened
    cases opened
  · rintro fault after ⟨refused, -⟩
    cases refused.symm.trans (createEntry_eq_ok_iff.mpr ⟨absent, rfl, rfl⟩)

/-- **A new entry is stored** where there was none that grants the same. -/
theorem calm_insertEntry {identity : Identity} {object : ObjectRef} {role : Role}
    (calm : Calm manager service) (absent : service.store.find? identity object role = none) :
    Ensures (insertEntry manager identity object role) service
      (fun entry after =>
        service.store.createEntry identity object role = .ok (entry, after.store) ∧
        SameSurroundings service after ∧ Calm manager after)
      (fun _ _ => False) := by
  have answers : Ensures (insertEntry manager identity object role) service (fun _ _ => True)
      (fun _ _ => False) := reachable_insertEntry calm.reachable calm.opened absent
  have manages : KeepsAt SameSurroundings service (insertEntry manager identity object role) :=
    KeptByManaging.insertEntry identity object role service
  refine ((answers.and (ensures_insertEntry identity object role calm.opened)).and manages).mono
    ?_ fun _ _ wrong => wrong.1.1
  rintro entry after ⟨⟨-, ⟨sets, created⟩, result⟩, same⟩
  refine ⟨result, same, same.outages.trans calm.reachable, (WriteStep.created created).isOpen
    calm.opened, calm.intact.createEntry result, ?_, calm.removed.created created⟩
  exact calm.added.created calm.intact.numbered created result

/-- **A stored entry is deleted.** -/
theorem unhindered_removeEntry (free : Unhindered manager service)
    (holds : service.store.Holds entry) :
    Ensures (removeEntry manager entry) service
      (fun _ after => service.store.deleteEntry entry.id = .ok after.store ∧
        Unhindered manager after)
      (fun _ _ => False) := by
  have stored : (service.store.get? entry.id).isSome = true := by
    rw [show service.store.get? entry.id = some entry from holds]
    rfl
  have answers : Ensures (removeEntry manager entry) service (fun _ _ => True)
      (fun _ _ => False) := by
    unfold removeEntry changeWorkingSets
    simp only [ensures_bind, ensures_record, ensures_modify]
    refine (reachable_change free.reachable (deleteEntry_eq_ok_iff.mpr ⟨stored, rfl⟩)).mono ?_
      fun _ _ => id
    rintro _ middle rfl
    refine ensures_workingSets.mono (fun _ _ _ => trivial) ?_
    rintro _ _ ⟨-, closed, -⟩
    have opened := free.opened
    rw [IsOpen, show service.transactions[manager]? = none from closed] at opened
    cases opened
  have manages : KeepsAt SameSurroundings service (removeEntry manager entry) :=
    KeptByManaging.removeEntry entry service
  refine ((answers.and (ensures_removeEntry free.opened)).and manages).mono
    ?_ fun _ _ wrong => wrong.1.1
  rintro _ after ⟨⟨-, sets, removed⟩, same⟩
  exact ⟨removed.result, same.outages.trans free.reachable, removed.isOpen,
    free.numbered.deleteEntry removed.result⟩

/-- **An entry is linked to a stored one**, unless it is already. Only if it is not stored is that
refused. -/
theorem answered_linkEntries {parent child : Entry} {kind : DependencyKind}
    (calm : Calm manager service) (childHeld : service.store.Holds child) :
    Ensures (linkEntries parent child kind) service
      (fun _ after => Tied ⟨parent.id, child.id, kind⟩ service.store after.store ∧
        SameSurroundings service after ∧ Calm manager after)
      (fun fault after => fault = .storage (.entryNotFound parent.id) ∧
        service.store.get? parent.id = none ∧ Still service after) := by
  unfold linkEntries
  refine (reachable_read calm.reachable).followed ?_
  rintro found middle ⟨rfl, still⟩
  have calm := calm.still still
  split
  · rename_i absent
    have absent : middle.store.findDependency? parent.id child.id = none := by
      rw [still.store]
      exact Option.isNone_iff_eq_none.mp absent
    simp only [ensures_bind, ensures_record]
    cases stored : middle.store.get? parent.id with
    | none =>
      refine (reachable_refused calm.reachable
        (createDependency_of_unstored absent stored)).mono (fun _ _ => False.elim) ?_
      rintro fault after ⟨rfl, stillAfter⟩
      exact ⟨rfl, still.store ▸ stored, IsTrans.trans _ _ _ still stillAfter⟩
    | some holder =>
      obtain ⟨store, answered⟩ : ∃ store, middle.store.createDependency
          ⟨parent.id, child.id, kind⟩ = .ok store :=
        ⟨_, createDependency_eq_ok_iff.mpr ⟨absent, Option.isSome_iff_exists.mpr ⟨_, stored⟩,
          Option.isSome_iff_exists.mpr ⟨child, still.store ▸ childHeld⟩, rfl⟩⟩
      have entries (id : EntryId) : store.get? id = middle.store.get? id := by
        obtain ⟨-, -, -, rfl⟩ := createDependency_eq_ok_iff.mp answered
        rfl
      refine (reachable_change calm.reachable answered).mono ?_ fun _ _ => False.elim
      rintro _ _ rfl
      refine ⟨.inl (still.store ▸ answered), ?_,
        (calm.restored (calm.intact.createDependency answered) entries).still (.recorded _ _)⟩
      exact ⟨still.cache, still.directory, still.registry, still.graph, still.outages⟩
  · rename_i known
    refine ensures_pure.mpr ⟨.inr ⟨?_, still.store⟩, still.toSameSurroundings, calm⟩
    rw [Option.isNone_iff_eq_none, ← ne_eq, ← Option.isSome_iff_ne_none] at known
    exact known

end BookingAccess.Manager
