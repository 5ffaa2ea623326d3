/-
**What an event does to the store and to the transactions.**

Only the manager who is called changes the store or a working set, and only as a call that grants or
revokes does. A transaction is opened by its beginning and closed by a commit or a rollback. Every
other event leaves the store and the transactions alone.

* `Question.keeps`, `Task.reads`: questions only read; `Task.grants`, `Task.revokes`: what the calls
  of a manager do;
* `EventKind`, `kind_of_event`: the kinds of events;
* `Consequence`, `consequence_of_event`: what they do, if what is handed over agrees with the store.
-/

import BookingAccess.Proofs.Service.Caching
import BookingAccess.Proofs.Transaction.Committing
import BookingAccess.Proofs.Transaction.Revoking

namespace BookingAccess

open Service Manager

variable {manager : ManagerId} {before after service : Service}

/-! ### Questions and tasks -/

/-- **A question keeps whatever reading keeps**, unless administration modes matter. -/
theorem Question.keeps {relation : Service → Service → Prop} [KeptByReading relation]
    [KeptBySwitching relation] (question : Question) : Keeps relation question.action := by
  cases question
  all_goals refine Keeps.map ?_
  · exact keeps_userId _
  · exact keeps_userInformation _
  · exact keeps_userInformationById _
  · exact keeps_userInformationByPrincipalName _
  · exact keeps_hasUser _
  · exact keeps_assuranceOf _
  · exact keeps_group _
  · exact keeps_groupIdByName _
  · exact KeptByReading.groupMembers _
  · exact keeps_usersOf _
  · exact keeps_listGroups _ _
  · exact keeps_modeOf _
  · exact keeps_isAdministrator _
  · exact keeps_isOperator _
  · exact keeps_updateAdministrationMode _ _
  · exact keeps_hasSystemPermission _ _
  · exact keeps_checkPolicies
  · exact keeps_userProjection _
  · exact keeps_objectProjection _
  · exact keeps_hasUserRole _ _ _
  · exact keeps_hasUserPermission _ _ _
  · exact keeps_hasRole _ _ _
  · exact keeps_hasPermission _ _ _
  · exact keeps_objectPermissions _ _
  · exact keeps_objectsWithRole _ _ _
  · exact keeps_objectsWithPermission _ _ _
  · exact keeps_userIdsWithRole _ _
  · exact keeps_usersWithRole _ _

/-- The task opens or closes a transaction. -/
def Task.isBoundary : Task → Bool
  | .begin | .commit | .rollback => true
  | _ => false

def Task.isGrant : Task → Bool
  | .createEntry .. | .propagateToChild .. | .createEntriesForChild .. => true
  | _ => false

/-- What a task that revokes is for. -/
def Task.deletion? : Task → Option Deletion
  | .deleteEntry revoked detach => some (.ofEntry revoked.id detach)
  | .deleteEntriesForObject object => some (.ofObject object true)
  | .deleteEntriesForChild _ child => some (.ofObject child false)
  | _ => none

/-- **A task that is nothing else keeps whatever reading keeps.** -/
theorem Task.reads {relation : Service → Service → Prop} [KeptByReading relation] {task : Task}
    (inside : task.isBoundary = false) (noGrant : task.isGrant = false)
    (noDeletion : task.deletion? = none) : Keeps relation (task.action manager) := by
  cases task with
  | isActive => exact .map keeps_isActive
  | getEntry identity object role => exact .map (keeps_getEntry identity object role)
  | entry id => exact .map (keeps_entry id)
  | entries object => exact .map (keeps_entries object)
  | begin | commit | rollback => exact nomatch inside
  | createEntry | propagateToChild | createEntriesForChild => exact nomatch noGrant
  | deleteEntry | deleteEntriesForObject | deleteEntriesForChild => exact nomatch noDeletion

/-- **A task that grants keeps whatever granting keeps.** -/
theorem Task.grants {relation : Service → Service → Prop} [KeptByGranting manager relation]
    {task : Task} (isGrant : task.isGrant = true) : Keeps relation (task.action manager) := by
  cases task with
  | createEntry identity object role => exact .map (keeps_createEntry identity object role)
  | propagateToChild parent child role kind =>
    exact .map (keeps_propagateToChild parent child role kind)
  | createEntriesForChild parent child => exact .map (keeps_createEntriesForChild parent child)
  | _ => exact nomatch isGrant

/-- **A task that revokes only deletes**, if what the manager has added agrees with the store. It
records what it deletes, if what is handed over agrees with the store as well. -/
theorem Task.revokes {task : Task} {deletion : Deletion}
    (isDeletion : task.deletion? = some deletion) (numbered : service.store.Numbered)
    (seen : ∀ entry, Sees manager service entry → service.store.Agrees entry) :
    KeepsAt (Revoking manager service.store deletion
      (∀ entry ∈ task.arguments, service.store.Agrees entry)) service (task.action manager) := by
  cases task with
  | deleteEntry revoked detach =>
    obtain rfl := Option.some.inj isDeletion
    exact KeepsAt.map (KeepsAt.mono (revokes_deleteEntry numbered) fun _ revoking =>
      revoking.mono fun agree => agree revoked (.head _))
  | deleteEntriesForObject object =>
    obtain rfl := Option.some.inj isDeletion
    exact KeepsAt.map (revokes_deleteEntriesForObject numbered seen)
  | deleteEntriesForChild parent child =>
    obtain rfl := Option.some.inj isDeletion
    exact KeepsAt.map (revokes_deleteEntriesForChild numbered)
  | _ => exact nomatch isDeletion

/-- **Between beginning and end a call grants or revokes, and does nothing else.** -/
theorem Task.writes {task : Task} (inside : task.isBoundary = false)
    (numbered : service.store.Numbered)
    (agree : ∀ entry ∈ task.arguments, service.store.Agrees entry)
    (seen : ∀ entry, Sees manager service entry → service.store.Agrees entry) :
    ∃ aim, Writes manager aim service ((task.action manager).run.run service).2 := by
  cases revokes : task.deletion? with
  | some deletion => exact ⟨.revoke, (task.revokes revokes numbered seen).after.writes agree⟩
  | none =>
    cases grants : task.isGrant with
    | true => exact ⟨.grant, (task.grants grants).after service⟩
    | false => exact ⟨.grant, .ofQuiet ((task.reads inside grants revokes).after service)⟩

/-! ### Beginning and ending -/

/-- The state once the transaction is open. -/
def Manager.opened (manager : ManagerId) (service : Service) : Service :=
  { service with transactions := service.transactions.insert manager .empty }

theorem ensures_begin :
    Ensures (begin manager) service
      (fun _ after => service.transactions[manager]? = none ∧ after = opened manager service)
      (fun _ after => after = service) := by
  unfold begin isActive
  simp only [ensures_bind, ensures_get, ensures_pure]
  split
  · rfl
  · rename_i absent
    refine ⟨?_, rfl⟩
    rw [Std.ExtTreeMap.contains_eq_isSome_getElem?] at absent
    simpa using absent

/-- A beginning opens a transaction, unless there is one already. -/
theorem begin_after (manager : ManagerId) (service : Service) :
    ((begin manager).run.run service).2 = service ∨
      service.transactions[manager]? = none ∧
        ((begin manager).run.run service).2 = opened manager service :=
  have begins : Ensures (begin manager) service
      (fun _ after => after = service ∨
        service.transactions[manager]? = none ∧ after = opened manager service)
      (fun _ after => after = service ∨
        service.transactions[manager]? = none ∧ after = opened manager service) :=
    ensures_begin.mono (fun _ _ => .inr) fun _ _ => .inl
  begins.after

theorem ensures_close :
    Ensures (close manager) service
      (fun sets after => service.transactions[manager]? = some sets ∧
        after = closed manager service)
      (fun _ after => service.transactions[manager]? = none ∧ after = service) := by
  unfold close
  simp only [ensures_bind, ensures_modify, ensures_pure]
  refine ensures_workingSets.mono ?_ fun _ _ => And.right
  rintro sets _ ⟨found, rfl⟩
  exact ⟨found, rfl⟩

/-- A rollback does nothing but close the transaction. -/
theorem ensures_rollback :
    Ensures (rollback manager) service (fun _ after => after = closed manager service)
      (fun _ after => service.transactions[manager]? = none ∧ after = service) := by
  unfold rollback
  simp only [ensures_bind, ensures_pure]
  exact ensures_close.mono (fun _ _ => And.right) fun _ _ => id

/-! ### The store and the transactions -/

/-- The entries of the store and the open transactions are the same. -/
structure Untouched (before after : Service) : Prop where
  entries : after.store.entries = before.store.entries
  lastId : after.store.lastId = before.store.lastId
  transactions : after.transactions = before.transactions

namespace Untouched

theorem ofQuiet (quiet : Quiet before after) : Untouched before after :=
  ⟨quiet.entries, quiet.lastId, quiet.transactions⟩

theorem ofSteady (steady : Steady before after) : Untouched before after :=
  ⟨congrArg _ steady.store, congrArg _ steady.store, steady.transactions⟩

theorem get? (untouched : Untouched before after) (id : EntryId) :
    after.store.get? id = before.store.get? id :=
  congrArg (·[id]?) untouched.entries

theorem holds_iff (untouched : Untouched before after) {entry : Entry} :
    after.store.Holds entry ↔ before.store.Holds entry :=
  Store.holds_congr untouched.entries

theorem numbered (untouched : Untouched before after) (numbered : before.store.Numbered) :
    after.store.Numbered := by
  intro id entry found
  rw [untouched.lastId]
  exact numbered id entry ((untouched.get? id).symm.trans found)

end Untouched

/-- A commit closes the transaction and leaves the store alone. -/
theorem Manager.Committed.untouched {given : EntryId → Option Entry} {sets : WorkingSets}
    (committed : Committed given manager sets before after) :
    Untouched (closed manager before) after :=
  ⟨committed.reworked.entries, committed.reworked.lastId, committed.reworked.transactions⟩

/-- A transaction was closed, or there was none. -/
def Closes (manager : ManagerId) (before after : Service) : Prop :=
  Steady before after ∨ Steady (closed manager before) after

theorem keeps_commit : Keeps (Closes manager) (commit manager) := by
  intro service
  unfold commit
  refine ensures_bind.mpr (ensures_close.mono ?_ ?_)
  rotate_left
  · rintro _ _ ⟨_, rfl⟩
    exact .inl (refl _)
  rintro sets _ ⟨_, rfl⟩
  have rest : Keeps Steady (do
      sets.added.values.forM applyAddition
      sets.removed.values.forM applyRemoval
      sets.cancelled.values.forM applyRemoval
      record (.transactionCommitted sets.added.size sets.removed.size)) :=
    .bind (.forM fun _ service => KeptByCaching.applyAddition (KeptByAsking.modifyCache service))
      fun _ => .bind (.forM KeptByCaching.applyRemoval) fun _ =>
        .bind (.forM KeptByCaching.applyRemoval) fun _ => KeptByAsking.record _
  exact (rest _).mono (fun _ _ => .inr) fun _ _ => .inr

theorem keeps_rollback : Keeps (Closes manager) (rollback manager) := fun _ =>
  ensures_rollback.mono (fun _ _ closes => .inr (.ofEq closes))
    fun _ _ refused => .inl (.ofEq refused.2)

/-! ### The kinds of events -/

/-- What an event is, as far as the store and the transactions go. -/
inductive EventKind (occurrence : Occurrence) : Prop
  | steady : Steady occurrence.before occurrence.after → EventKind occurrence
  | opened (manager : ManagerId) : occurrence.event = .call (.manage manager .begin) →
      occurrence.before.transactions[manager]? = none →
      Steady (opened manager occurrence.before) occurrence.after → EventKind occurrence
  | closed (manager : ManagerId) :
      Steady (closed manager occurrence.before) occurrence.after → EventKind occurrence
  | granting (manager : ManagerId) (task : Task) :
      occurrence.event = .call (.manage manager task) → task.isGrant = true → EventKind occurrence
  | revoking (manager : ManagerId) (task : Task) (deletion : Deletion) :
      occurrence.event = .call (.manage manager task) → task.deletion? = some deletion →
      EventKind occurrence

/-- **Every event is of one of these kinds.** -/
theorem kind_of_event (occurrence : Occurrence) : EventKind occurrence := by
  obtain ⟨before, event⟩ := occurrence
  cases event with
  | outages failing => exact .steady ⟨rfl, rfl, rfl⟩
  | graph objects => exact .steady ⟨rfl, rfl, rfl⟩
  | call made =>
    cases made with
    | ask question => exact .steady (question.keeps.after before)
    | regroup change => exact .steady (change.keeps.after before)
    | clearCache => exact .steady ⟨rfl, rfl, rfl⟩
    | manage manager task =>
      have closing {occurrence : Occurrence}
          (closes : Closes manager occurrence.before occurrence.after) : EventKind occurrence :=
        closes.elim .steady (.closed manager)
      cases boundary : task.isBoundary with
      | false =>
        cases revokes : task.deletion? with
        | some deletion => exact .revoking manager task deletion rfl revokes
        | none =>
          cases grants : task.isGrant with
          | true => exact .granting manager task rfl grants
          | false => exact .steady ((task.reads boundary grants revokes).after before)
      | true =>
        cases task with
        | begin =>
          rcases begin_after manager before with same | ⟨absent, opened⟩
          · exact .steady (.ofEq same)
          · exact .opened manager rfl absent (.ofEq opened)
        | commit => exact closing (keeps_commit.after before)
        | rollback => exact closing (keeps_rollback.after before)
        | _ => exact nomatch boundary

theorem Occurrence.after_eq_of_task {occurrence : Occurrence} {task : Task}
    (called : occurrence.event = .call (.manage manager task)) :
    occurrence.after = ((task.action manager).run.run occurrence.before).2 := by
  unfold Occurrence.after
  rw [called]
  rfl

/-- What an event does to the store and to the transactions. -/
inductive Consequence (occurrence : Occurrence) : Prop
  | steady : Steady occurrence.before occurrence.after → Consequence occurrence
  | opened (manager : ManagerId) : occurrence.event = .call (.manage manager .begin) →
      occurrence.before.transactions[manager]? = none →
      Steady (opened manager occurrence.before) occurrence.after → Consequence occurrence
  | written (manager : ManagerId) (task : Task) (aim : Aim) :
      occurrence.event = .call (.manage manager task) →
      Writes manager aim occurrence.before occurrence.after → Consequence occurrence
  | closed (manager : ManagerId) :
      Steady (closed manager occurrence.before) occurrence.after → Consequence occurrence

/-- No event changes the registry. -/
theorem Consequence.registry {occurrence : Occurrence} (consequence : Consequence occurrence) :
    occurrence.after.registry = occurrence.before.registry := by
  cases consequence with
  | steady steady => exact steady.registry
  | opened manager _ _ steady => exact steady.registry
  | written manager task aim _ writes => exact writes.registry
  | closed manager steady => exact steady.registry

/-- **Every event has one of these consequences**, if the entries that are handed over and those
that a manager sees agree with the store. -/
theorem consequence_of_event {occurrence : Occurrence} (numbered : occurrence.before.store.Numbered)
    (agree : occurrence.EntriesAgree)
    (seen : ∀ (manager : ManagerId) (entry : Entry), Sees manager occurrence.before entry →
      occurrence.before.store.Agrees entry) : Consequence occurrence := by
  cases kind_of_event occurrence with
  | steady steady => exact .steady steady
  | opened manager begins absent steady => exact .opened manager begins absent steady
  | closed manager steady => exact .closed manager steady
  | granting manager task called isGrant =>
    refine .written manager task .grant called ?_
    rw [Occurrence.after_eq_of_task called]
    exact (task.grants isGrant).after occurrence.before
  | revoking manager task deletion called isDeletion =>
    refine .written manager task .revoke called ?_
    rw [Occurrence.after_eq_of_task called]
    exact (task.revokes isDeletion numbered (seen manager)).after.writes (agree manager task called)

end BookingAccess
