/-
**Runs that are worked out.**

A list of events is worked out from a given state, and whether it keeps to the rules is decided by
looking at each event and the state before it.

* `replay`: what occurs, and the state in the end;
* `Run.ofEvents`: events that keep to the rule make a run;
* instances of `Decidable` for the rules and for idle states;
* `Service.sample`: a small state to start from.
-/

import BookingAccess.Proofs.Consequence

namespace BookingAccess

/-- What occurs as these events come one after another, last first, and the state in the end. -/
def replay (past : List Occurrence) (service : Service) : List Event → List Occurrence × Service
  | [] => (past, service)
  | event :: events => replay (⟨service, event⟩ :: past) (event.next service) events

theorem mem_replay {past : List Occurrence} {service : Service} {events : List Event}
    {occurrence : Occurrence} (earlier : occurrence ∈ past) :
    occurrence ∈ (replay past service events).1 := by
  induction events generalizing past service with
  | nil => exact earlier
  | cons event events ih => exact ih (.tail _ earlier)

theorem Run.andThen {rule : Occurrence → Prop} {start service : Service} {past : List Occurrence}
    {events : List Event} (run : Run rule start past service)
    (ruled : ∀ occurrence ∈ (replay past service events).1, rule occurrence) :
    Run rule start (replay past service events).1 (replay past service events).2 := by
  induction events generalizing past service with
  | nil => exact run
  | cons event events ih =>
    have occurs : ⟨service, event⟩ ∈
        (replay (⟨service, event⟩ :: past) (event.next service) events).1 :=
      mem_replay List.mem_cons_self
    exact ih (.next event run (ruled _ occurs)) ruled

/-- **Events that keep to the rule make a run.** -/
theorem Run.ofEvents {rule : Occurrence → Prop} {start : Service} {events : List Event}
    (ruled : ∀ occurrence ∈ (replay [] start events).1, rule occurrence) :
    Run rule start (replay [] start events).1 (replay [] start events).2 :=
  Run.start.andThen ruled

/-- Any events make a run, if there is no rule. -/
theorem Run.replayed (start : Service) (events : List Event) :
    Run (fun _ => True) start (replay [] start events).1 (replay [] start events).2 :=
  .ofEvents fun _ _ => trivial

/-! ### States -/

instance {store : Store} {entry : Entry} : Decidable (store.Holds entry) :=
  inferInstanceAs (Decidable (store.get? entry.id = some entry))

theorem Store.agrees_iff {store : Store} {entry : Entry} :
    store.Agrees entry ↔ (store.get? entry.id).all (· == entry) = true := by
  unfold Agrees
  cases store.get? entry.id <;> simp

instance {store : Store} {entry : Entry} : Decidable (store.Agrees entry) :=
  decidable_of_iff' _ Store.agrees_iff

theorem Service.idle_iff {service : Service} :
    service.Idle ↔ service.transactions.isEmpty = true := by
  unfold Idle
  rw [Std.ExtTreeMap.isEmpty_iff]
  refine ⟨fun idle => Std.ExtTreeMap.ext_getElem? fun manager => ?_, fun none manager => ?_⟩
  · rw [idle manager, Std.ExtTreeMap.getElem?_empty]
  · rw [none, Std.ExtTreeMap.getElem?_empty]

instance {service : Service} : Decidable service.Idle := decidable_of_iff' _ Service.idle_iff

instance {manager : ManagerId} {service : Service} : Decidable (Manager.IsOpen manager service) :=
  inferInstanceAs (Decidable (service.transactions[manager]?.isSome = true))

/-- What a question finds is its answer. -/
theorem ok_of_toOption {ε α : Type} {result : Except ε α} {value : α}
    (found : result.toOption = some value) : result = .ok value := by
  cases result with
  | error fault => exact nomatch found
  | ok answer => exact congrArg Except.ok (Option.some.inj found)

/-- What a call fails with is its answer. -/
theorem error_of_fault {ε α : Type} {result : Except ε α} {fault : ε}
    (failed : (match result with
      | .ok _ => none
      | .error found => some found) = some fault) : result = .error fault := by
  cases result with
  | error found => exact congrArg Except.error (Option.some.inj failed)
  | ok answer => exact nomatch failed

/-- An object of the sample service. -/
def ObjectRef.sample : ObjectRef := ⟨.resource, 1⟩

/-- A service that knows one user and one class of objects with one role. -/
def Service.sample : Service where
  registry := ⟨.ofList [(ObjectClass.resource,
    ObjectType.withRole { objectClass := .resource } .reader [.read])]⟩
  administrator := .never
  operator := .never
  reservation := .never
  store := .empty
  directory := Directory.empty.addUser { id := "1" }
  lookups := 0
  graph := default
  outages := .none
  calls := 0
  cache := .empty
  modes := ∅
  transactions := ∅
  trail := []

theorem Service.fresh_sample : Service.sample.Fresh where
  cache := rfl
  idle := by decide +kernel
  numbered id entry found := nomatch Std.ExtTreeMap.getElem?_empty.symm.trans found

/-- Nobody is in a group yet. -/
theorem Service.sound_sample : Service.sample.directory.Sound := by
  have absent (group : GroupId) : Service.sample.directory.members[group]? = none :=
    Std.ExtTreeMap.getElem?_empty
  constructor
  · intro group known
    rw [Std.ExtTreeMap.contains_eq_isSome_getElem?, absent] at known
    exact nomatch known
  · intro group user member
    rw [Directory.hasMember, absent] at member
    exact nomatch member

/-- Another object of the sample service. -/
def ObjectRef.part : ObjectRef := ⟨.resource, 2⟩

/-- The sample service in which grants on the object propagate to a part of it. -/
def Service.sampleWithPart : Service := { Service.sample with
  registry := ⟨.ofList [(ObjectClass.resource,
    ObjectType.withRole { objectClass := .resource } .reader [.read]
      |>.withRule (.inherit "parts" .resource))]⟩
  graph := ⟨[⟨.sample, "parts", .part⟩]⟩ }

/-! ### Rules -/

namespace Occurrence

variable {manager : ManagerId} {occurrence : Occurrence}

/-- The call of a manager that the event is. -/
def task? (occurrence : Occurrence) : Option (ManagerId × Task) :=
  match occurrence.event with
  | .call (.manage manager task) => some (manager, task)
  | _ => none

theorem task?_eq_some_iff {task : Task} :
    occurrence.task? = some (manager, task) ↔ occurrence.event = .call (.manage manager task) := by
  unfold task?
  split <;> simp_all

/-- A rule about the calls of managers, as a rule about the one call that there may be. -/
theorem forall_task_iff {rule : ManagerId × Task → Prop} :
    (∀ manager task, occurrence.event = .call (.manage manager task) → rule (manager, task)) ↔
      ∀ call ∈ occurrence.task?, rule call := by
  simp only [← task?_eq_some_iff, Option.mem_def, Prod.forall]

theorem entriesAgree_iff : occurrence.EntriesAgree ↔
    ∀ call ∈ occurrence.task?, ∀ entry ∈ call.2.arguments,
      occurrence.before.store.Agrees entry := by
  rw [← forall_task_iff]
  exact Iff.rfl

instance : Decidable occurrence.EntriesAgree := decidable_of_iff' _ entriesAgree_iff

/-- The call is no commit, or it ends otherwise than by an outage. -/
def answered (before : Service) : ManagerId × Task → Bool
  | (manager, .commit) =>
    match ((Manager.commit manager).run.run before).1 with
    | .ok _ => true
    | .error fault => !fault.isOutage
  | _ => true

theorem commitsAnswered_iff : occurrence.CommitsAnswered ↔
    ∀ call ∈ occurrence.task?, answered occurrence.before call = true := by
  refine Iff.trans ⟨fun answers => ?_, fun answers => ?_⟩ forall_task_iff
  · intro manager task called
    unfold answered
    split
    · rename_i other same
      obtain ⟨rfl, rfl⟩ := Prod.mk.inj same
      split
      · rfl
      · rename_i fault result
        simp [answers manager fault called result]
    · rfl
  · intro manager fault called result
    simpa [answered, result] using answers manager .commit called

instance : Decidable occurrence.CommitsAnswered := decidable_of_iff' _ commitsAnswered_iff

def rollsBack : ManagerId × Task → Bool
  | (_, .rollback) => true
  | _ => false

instance : Decidable occurrence.NoRollback :=
  decidable_of_iff' (∀ call ∈ occurrence.task?, rollsBack call = false) <| by
    refine Iff.trans ⟨fun noRollback => ?_, fun noRollback => ?_⟩ forall_task_iff
    · intro manager task called
      unfold rollsBack
      split
      · rename_i other same
        obtain ⟨rfl, rfl⟩ := Prod.mk.inj same
        exact absurd called (noRollback manager)
      · rfl
    · intro manager called
      exact nomatch noRollback manager .rollback called

instance : Decidable occurrence.NoGroupChange :=
  match called : occurrence.event with
  | .call (.regroup change) => isFalse fun noChange => noChange change called
  | .call (.ask _) => isTrue fun _ same => nomatch called.symm.trans same
  | .call .clearCache => isTrue fun _ same => nomatch called.symm.trans same
  | .call (.manage _ _) => isTrue fun _ same => nomatch called.symm.trans same
  | .outages _ => isTrue fun _ same => nomatch called.symm.trans same
  | .graph _ => isTrue fun _ same => nomatch called.symm.trans same

instance : Decidable occurrence.NoClearing :=
  match called : occurrence.event with
  | .call .clearCache => isFalse fun noClearing => noClearing called
  | .call (.ask _) => isTrue fun same => nomatch called.symm.trans same
  | .call (.regroup _) => isTrue fun same => nomatch called.symm.trans same
  | .call (.manage _ _) => isTrue fun same => nomatch called.symm.trans same
  | .outages _ => isTrue fun same => nomatch called.symm.trans same
  | .graph _ => isTrue fun same => nomatch called.symm.trans same

theorem sparesOpenGrants_iff : occurrence.SparesOpenGrants ↔
    ∀ call ∈ occurrence.task?, ∀ other ∈ occurrence.before.transactions.toList,
      other.1 ≠ call.1 → ∀ entry ∈ other.2.added.values,
        occurrence.before.store.Holds entry → occurrence.after.store.Holds entry := by
  refine Iff.trans ⟨fun spares => ?_, fun spares => ?_⟩ forall_task_iff
  · rintro manager task called ⟨other, sets⟩ listed different
    exact spares manager task called other sets different
      (Std.ExtTreeMap.mem_toList_iff_getElem?_eq_some.mp listed)
  · intro manager task called other sets different opened
    exact spares manager task called (other, sets)
      (Std.ExtTreeMap.mem_toList_iff_getElem?_eq_some.mpr opened) different

instance : Decidable occurrence.SparesOpenGrants := decidable_of_iff' _ sparesOpenGrants_iff

theorem managedBy_iff : occurrence.ManagedBy manager ↔
    ∀ call ∈ occurrence.task?, call.1 = manager := by
  rw [← forall_task_iff]
  exact Iff.rfl

instance : Decidable (occurrence.ManagedBy manager) := decidable_of_iff' _ managedBy_iff

theorem othersSpareStore_iff : occurrence.OthersSpareStore manager ↔
    occurrence.task?.any (·.1 == manager) = true ∨
      occurrence.after.store = occurrence.before.store := by
  unfold OthersSpareStore
  simp only [Ne, ← task?_eq_some_iff]
  cases occurrence.task? with
  | none => simp
  | some call =>
    obtain ⟨caller, task⟩ := call
    by_cases same : caller = manager <;> simp [same]

instance : Decidable (occurrence.OthersSpareStore manager) :=
  decidable_of_iff' _ othersSpareStore_iff

end Occurrence

end BookingAccess
