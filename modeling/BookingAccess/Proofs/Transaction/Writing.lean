/-
**What a manager writes.**

Between its beginning and its end a transaction changes the store and its working sets in two ways
only: an entry under the next number is stored and recorded as added, or a stored entry is deleted
and recorded as removed. All else that a manager does in between is quiet.

* `Created`, `Deleted`: the two changes; `WriteStep`: a step of a call that grants or revokes;
* `Writes`: the steps of a whole call; it does one or the other, never both;
* `ensures_insertEntry`, `ensures_removeEntry`: the two actions that take the steps; `Removed`: what
  the second does, whatever entry it is handed.
-/

import BookingAccess.Proofs.Run
import BookingAccess.Proofs.Service.Reading
import BookingAccess.Proofs.Store.Intact
import Mathlib.Logic.Relation

namespace BookingAccess.Manager

open Service

variable {manager : ManagerId} {before after service : Service}

/-! ### Steps -/

def IsOpen (manager : ManagerId) (service : Service) : Prop :=
  service.transactions[manager]?.isSome = true

theorem isOpen_of_some {sets : WorkingSets} (opened : service.transactions[manager]? = some sets) :
    IsOpen manager service := by
  unfold IsOpen
  rw [opened]
  rfl

/-- A new entry was stored and recorded. -/
structure Created (manager : ManagerId) (sets : WorkingSets) (entry : Entry)
    (before after : Service) : Prop where
  opened : before.transactions[manager]? = some sets
  number : entry.id = before.store.lastId + 1
  lastId : after.store.lastId = before.store.lastId + 1
  entries : after.store.entries = before.store.entries.insert entry.id entry
  transactions : after.transactions = before.transactions.insert manager (sets.add entry)
  registry : after.registry = before.registry
  directory : after.directory = before.directory
  cache : after.cache = before.cache

/-- A stored entry was deleted and that was recorded. -/
structure Deleted (manager : ManagerId) (sets : WorkingSets) (entry : Entry)
    (before after : Service) : Prop where
  opened : before.transactions[manager]? = some sets
  stored : before.store.Holds entry
  lastId : after.store.lastId = before.store.lastId
  entries : after.store.entries = before.store.entries.erase entry.id
  transactions : after.transactions = before.transactions.insert manager (sets.remove entry)
  registry : after.registry = before.registry
  directory : after.directory = before.directory
  cache : after.cache = before.cache

/-- An entry was deleted by its number, and the entry that was named was recorded. -/
structure Removed (manager : ManagerId) (sets : WorkingSets) (entry : Entry)
    (before after : Service) : Prop where
  opened : before.transactions[manager]? = some sets
  result : before.store.deleteEntry entry.id = .ok after.store
  transactions : after.transactions = before.transactions.insert manager (sets.remove entry)
  registry : after.registry = before.registry
  directory : after.directory = before.directory
  cache : after.cache = before.cache

/-- An entry that agrees with the store is the one that is deleted. -/
theorem Removed.deleted {sets : WorkingSets} {entry : Entry}
    (removed : Removed manager sets entry before after) (agrees : before.store.Agrees entry) :
    Deleted manager sets entry before after := by
  obtain ⟨present, same⟩ := Store.deleteEntry_eq_ok_iff.mp removed.result
  exact ⟨removed.opened, agrees.holds present, by rw [same], by rw [same], removed.transactions,
    removed.registry, removed.directory, removed.cache⟩

theorem Removed.isOpen {sets : WorkingSets} {entry : Entry}
    (removed : Removed manager sets entry before after) : IsOpen manager after := by
  rw [IsOpen, removed.transactions, OrderedMap.lookup_insert, if_pos rfl]
  rfl

/-- What a call is there for. -/
inductive Aim
  | grant
  | revoke

/-- One step of a call. -/
inductive WriteStep (manager : ManagerId) : Aim → Service → Service → Prop
  | quiet {aim : Aim} {before after : Service} :
      Quiet before after → WriteStep manager aim before after
  | created {sets : WorkingSets} {entry : Entry} {before after : Service} :
      Created manager sets entry before after → WriteStep manager .grant before after
  | deleted {sets : WorkingSets} {entry : Entry} {before after : Service} :
      Deleted manager sets entry before after → WriteStep manager .revoke before after

/-- The steps of a call. -/
abbrev Writes (manager : ManagerId) (aim : Aim) : Service → Service → Prop :=
  Relation.ReflTransGen (WriteStep manager aim)

theorem Writes.ofQuiet {aim : Aim} (quiet : Quiet before after) :
    Writes manager aim before after :=
  .single (.quiet quiet)

theorem WriteStep.isOpen {aim : Aim} (step : WriteStep manager aim before after)
    (opened : IsOpen manager before) : IsOpen manager after := by
  unfold IsOpen at *
  cases step with
  | quiet quiet => rwa [quiet.transactions]
  | created created => simp [created.transactions]
  | deleted deleted => simp [deleted.transactions]

theorem Writes.isOpen {aim : Aim} (writes : Writes manager aim before after)
    (opened : IsOpen manager before) : IsOpen manager after := by
  induction writes with
  | refl => exact opened
  | tail _ step ih => exact step.isOpen ih

/-- A call that writes opens no transaction. -/
theorem Writes.wasOpen {aim : Aim} (writes : Writes manager aim before after)
    (opened : IsOpen manager after) : IsOpen manager before := by
  induction writes with
  | refl => exact opened
  | tail _ step ih =>
    refine ih ?_
    cases step with
    | quiet quiet => rwa [IsOpen, quiet.transactions] at opened
    | created created => exact isOpen_of_some created.opened
    | deleted deleted => exact isOpen_of_some deleted.opened

/-- The transactions of other managers stay as they are. -/
theorem WriteStep.others {aim : Aim} (step : WriteStep manager aim before after)
    {other : ManagerId} (different : manager ≠ other) :
    after.transactions[other]? = before.transactions[other]? := by
  cases step with
  | quiet quiet => rw [quiet.transactions]
  | created created => rw [created.transactions, OrderedMap.lookup_insert, if_neg different]
  | deleted deleted => rw [deleted.transactions, OrderedMap.lookup_insert, if_neg different]

theorem Writes.others {aim : Aim} (writes : Writes manager aim before after)
    {other : ManagerId} (different : manager ≠ other) :
    after.transactions[other]? = before.transactions[other]? := by
  induction writes with
  | refl => rfl
  | tail _ step ih => rw [step.others different, ih]

/-- The registry stays as it is. -/
theorem Writes.registry {aim : Aim} (writes : Writes manager aim before after) :
    after.registry = before.registry := by
  induction writes with
  | refl => rfl
  | tail _ step ih =>
    refine Eq.trans ?_ ih
    cases step with
    | quiet quiet => exact quiet.registry
    | created created => exact created.registry
    | deleted deleted => exact deleted.registry

/-! ### Inside a transaction -/

theorem ensures_workingSets :
    Ensures (workingSets manager) service
      (fun sets after => service.transactions[manager]? = some sets ∧ after = service)
      (fun fault after => fault = .noTransaction ∧ service.transactions[manager]? = none ∧
        after = service) := by
  unfold workingSets
  simp only [ensures_bind, ensures_get]
  cases service.transactions[manager]? with
  | none => exact ⟨rfl, rfl, rfl⟩
  | some sets => exact ⟨rfl, rfl⟩

theorem ensures_requireTransaction :
    Ensures (requireTransaction manager) service
      (fun _ after => IsOpen manager service ∧ after = service)
      (fun _ after => after = service) := by
  unfold requireTransaction
  simp only [ensures_bind, ensures_pure]
  refine ensures_workingSets.mono ?_ fun _ _ wrong => wrong.2.2
  rintro sets after ⟨opened, rfl⟩
  exact ⟨isOpen_of_some opened, rfl⟩

/-- Without a transaction nothing happens behind the check for one. -/
theorem keepsAt_requireTransaction_bind {relation : Service → Service → Prop}
    [IsPreorder Service relation] {α : Type} {rest : Unit → Action α}
    (keeps : IsOpen manager service → KeepsAt relation service (rest ())) :
    KeepsAt relation service (requireTransaction manager >>= rest) := by
  refine ensures_bind.mpr (ensures_requireTransaction.mono ?_ fun _ _ same => same ▸ refl _)
  rintro _ _ ⟨opened, rfl⟩
  exact keeps opened

/-! ### The two writing actions -/

theorem ensures_insertEntry (identity : Identity) (object : ObjectRef) (role : Role)
    (opened : IsOpen manager service) :
    Ensures (insertEntry manager identity object role) service
      (fun entry after => (∃ sets, Created manager sets entry service after) ∧
        service.store.createEntry identity object role = .ok (entry, after.store))
      (fun _ after => Quiet service after ∧ Steady service after) := by
  unfold insertEntry changeWorkingSets
  simp only [ensures_bind, ensures_ofStore, ensures_record, ensures_modify, ensures_pure]
  refine (ensures_storeCall _ _).mono ?_ ?_
  · rintro entry middle ⟨store, result, rfl⟩
    obtain ⟨-, rfl, rfl⟩ := Store.createEntry_eq_ok_iff.mp result
    refine ensures_workingSets.mono ?_ ?_
    · rintro sets after ⟨opened, rfl⟩
      exact ⟨⟨sets, opened, rfl, rfl, rfl, rfl, rfl, rfl, rfl⟩, result⟩
    · rintro fault after ⟨_, closed, rfl⟩
      have closed : service.transactions[manager]? = none := closed
      simp [IsOpen, closed] at opened
  · rintro fault after ⟨_, rfl⟩
    exact ⟨.of_same rfl rfl rfl rfl rfl rfl, rfl, rfl, rfl⟩

theorem ensures_removeEntry {entry : Entry} (opened : IsOpen manager service) :
    Ensures (removeEntry manager entry) service
      (fun _ after => ∃ sets, Removed manager sets entry service after)
      (fun _ after => Quiet service after ∧ Steady service after) := by
  unfold removeEntry changeWorkingSets
  simp only [ensures_bind, ensures_ofStore, ensures_record, ensures_modify]
  refine (ensures_storeChange _ _).mono ?_ ?_
  · rintro _ middle ⟨store, result, rfl⟩
    refine ensures_workingSets.mono ?_ ?_
    · rintro sets after ⟨opened, rfl⟩
      exact ⟨sets, opened, result, rfl, rfl, rfl, rfl⟩
    · rintro fault after ⟨_, closed, rfl⟩
      have closed : service.transactions[manager]? = none := closed
      simp [IsOpen, closed] at opened
  · rintro fault after ⟨_, rfl⟩
    exact ⟨.of_same rfl rfl rfl rfl rfl rfl, rfl, rfl, rfl⟩

end BookingAccess.Manager
