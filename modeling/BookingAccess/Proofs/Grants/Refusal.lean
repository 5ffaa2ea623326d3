/-
**Calls that are refused.**

Whether a call that creates or deletes entries fails is settled before it writes anything. What it
takes can be told from the state: a transaction, a class that is registered and has the role, and an
entry that is stored and that no parent holds. Once a call writes, however far it propagates or
cascades, it succeeds.

* `Task.refusal?`: why a call is refused; `Refuses`: it fails exactly then, without writing;
* `refuses_createEntry` and its like: the calls; `fails_iff_refused`: whatever has happened before.
-/

import BookingAccess.Proofs.Cache.Mindful
import BookingAccess.Proofs.Grants.Detaching
import BookingAccess.Proofs.Grants.Ensuing
import BookingAccess.Proofs.Transaction.Clearing
import BookingAccess.Proofs.Transaction.Passing

namespace BookingAccess

open Service Manager Store

variable {manager : ManagerId} {start service : Service} {past : List Occurrence} {task : Task}

/-! ### Reasons -/

/-- Why the role cannot be granted on the object. -/
def Registry.refusal? (registry : Registry) (object : ObjectRef) (role : Role) :
    Option AccessError :=
  match registry.get? object.objectClass with
  | none => some (.unknownObjectClass object.objectClass)
  | some type => if type.allows role then none else some (.invalidRole object role)

theorem Registry.refusal?_eq_none_iff {registry : Registry} {object : ObjectRef} {role : Role} :
    registry.refusal? object role = none ↔ registry.allows object.objectClass role = true := by
  unfold refusal? allows
  cases registry.get? object.objectClass with
  | none => simp
  | some type => simp

/-- Why there are no grants on the object. -/
def Registry.unknownClass? (registry : Registry) (object : ObjectRef) : Option AccessError :=
  if (registry.get? object.objectClass).isSome then none
  else some (.unknownObjectClass object.objectClass)

/-- Why the entry cannot be deleted. -/
def Store.refusal? (store : Store) (entry : Entry) (detach : Bool) : Option AccessError :=
  if (store.get? entry.id).isNone then some (.storage (.entryNotFound entry.id))
  else if detach || (store.dependenciesOfChild entry.id).isEmpty then none
  else some (.referenced entry.id)

namespace Task

/-- Calls that create or delete entries, with all that belongs to them. -/
def changesGrants : Task → Bool
  | .createEntry .. | .createEntriesForChild .. => true
  | .deleteEntry .. | .deleteEntriesForObject _ | .deleteEntriesForChild .. => true
  | _ => false

/-- Root needs no grants and gets none. -/
def grantsToRoot : Task → Bool
  | .createEntry identity _ _ => identity.isRoot
  | _ => false

/-- What stands against the call in an open transaction. -/
def objection? (service : Service) : Task → Option AccessError
  | .createEntry _ object role => service.registry.refusal? object role
  | .createEntriesForChild _ child => service.registry.unknownClass? child
  | .deleteEntry revoked detach => service.store.refusal? revoked detach
  | _ => none

/-- Why the call is refused. -/
def refusal? (manager : ManagerId) (service : Service) (task : Task) : Option AccessError :=
  if task.grantsToRoot then none
  else if service.transactions[manager]?.isSome then task.objection? service
  else some .noTransaction

/-- The faults that there are. Only the deletion of an entry that is not stored fails in the
store. -/
def MayFailWith (service : Service) (task : Task) : AccessError → Prop
  | .noTransaction | .unknownObjectClass _ | .invalidRole _ _ | .referenced _ => True
  | .storage (.entryNotFound id) =>
    ∃ revoked detach, task = .deleteEntry revoked detach ∧ revoked.id = id ∧
      service.store.get? id = none
  | _ => False

theorem refusal?_opened (opened : IsOpen manager service) (notRoot : task.grantsToRoot = false) :
    task.refusal? manager service = task.objection? service := by
  unfold Manager.IsOpen at opened
  simp [refusal?, notRoot, opened]

theorem refusal?_closed (closed : service.transactions[manager]? = none)
    (notRoot : task.grantsToRoot = false) :
    task.refusal? manager service = some .noTransaction := by
  simp [refusal?, notRoot, closed]

/-- A call is refused for one of these reasons. -/
theorem mayFailWith_of_objection? {fault : AccessError}
    (refused : task.objection? service = some fault) : task.MayFailWith service fault := by
  cases task with
  | createEntry identity object role =>
    change service.registry.refusal? object role = some fault at refused
    unfold Registry.refusal? at refused
    split at refused
    · exact Option.some.inj refused ▸ trivial
    · split at refused
      · exact nomatch refused
      · exact Option.some.inj refused ▸ trivial
  | createEntriesForChild parent child =>
    change service.registry.unknownClass? child = some fault at refused
    unfold Registry.unknownClass? at refused
    split at refused
    · exact nomatch refused
    · exact Option.some.inj refused ▸ trivial
  | deleteEntry revoked detach =>
    change service.store.refusal? revoked detach = some fault at refused
    unfold Store.refusal? at refused
    split at refused
    · rename_i absent
      exact Option.some.inj refused ▸
        ⟨revoked, detach, rfl, rfl, Option.isNone_iff_eq_none.mp absent⟩
    · split at refused
      · exact nomatch refused
      · exact Option.some.inj refused ▸ trivial
  | _ => exact nomatch refused

theorem mayFailWith_of_refusal? {fault : AccessError}
    (refused : task.refusal? manager service = some fault) : task.MayFailWith service fault := by
  unfold refusal? at refused
  split at refused
  · exact nomatch refused
  split at refused
  · exact mayFailWith_of_objection? refused
  · exact Option.some.inj refused ▸ trivial

end Task

/-! ### Single calls -/

/-- The call fails exactly where it is refused, and then it has done nothing. -/
def Refuses (manager : ManagerId) (service : Service) (task : Task) : Prop :=
  Ensures (task.action manager) service
    (fun _ _ => task.refusal? manager service = none)
    (fun fault after => task.refusal? manager service = some fault ∧ Still service after)

/-- Whether the role is allowed is checked before anything is done. -/
theorem refuses_validateRole (object : ObjectRef) (role : Role) :
    Ensures (validateRole object role) service
      (fun _ after => service.registry.refusal? object role = none ∧ after = service)
      (fun fault after => service.registry.refusal? object role = some fault ∧
        after = service) := by
  unfold validateRole Registry.refusal?
  simp only [ensures_bind, ensures_get]
  cases service.registry.get? object.objectClass with
  | none => exact ensures_throw.mpr ⟨rfl, rfl⟩
  | some type =>
    dsimp only
    cases type.allows role with
    | true => exact ensures_pure.mpr ⟨rfl, rfl⟩
    | false => exact ensures_throw.mpr ⟨rfl, rfl⟩

/-- Without a transaction nothing is done. -/
theorem refuses_closed (closed : service.transactions[manager]? = none)
    (changes : task.changesGrants = true) : Refuses manager service task := by
  have stops {α : Type} {rest : Unit → Action α} (notRoot : task.grantsToRoot = false) :
      Ensures (requireTransaction manager >>= rest) service
        (fun _ _ => task.refusal? manager service = none)
        (fun fault after => task.refusal? manager service = some fault ∧ Still service after) := by
    unfold requireTransaction
    simp only [bind_assoc, ensures_bind]
    refine ensures_workingSets.mono ?_ ?_
    · rintro sets _ ⟨opened, -⟩
      exact absurd (opened.symm.trans closed) (Option.some_ne_none _)
    · rintro fault _ ⟨rfl, -, rfl⟩
      exact ⟨Task.refusal?_closed closed notRoot, refl _⟩
  cases task with
  | createEntry identity object role =>
    refine ensures_map.mpr ?_
    unfold Manager.createEntry
    split
    · rename_i isRoot
      exact ensures_pure.mpr (if_pos isRoot)
    · rename_i notRoot
      exact stops (Bool.not_eq_true _ ▸ notRoot)
  | createEntriesForChild parent child => exact ensures_map.mpr (stops rfl)
  | deleteEntry revoked detach => exact ensures_map.mpr (stops rfl)
  | deleteEntriesForObject object => exact ensures_map.mpr (stops rfl)
  | deleteEntriesForChild parent child => exact ensures_map.mpr (stops rfl)
  | _ => exact absurd changes Bool.false_ne_true

section Calm

variable (calm : Calm manager service)
include calm

theorem refuses_createEntry (identity : Identity) (object : ObjectRef) (role : Role) :
    Refuses manager service (.createEntry identity object role) := by
  refine ensures_map.mpr ?_
  cases isRoot : identity.isRoot with
  | true =>
    unfold Manager.createEntry
    rw [if_pos isRoot]
    exact ensures_pure.mpr (if_pos isRoot)
  | false =>
    have same : (Task.createEntry identity object role).refusal? manager service =
        service.registry.refusal? object role := Task.refusal?_opened calm.opened isRoot
    rw [same]
    cases refused : service.registry.refusal? object role with
    | some fault =>
      unfold Manager.createEntry
      simp only [isRoot, Bool.false_eq_true, if_false]
      refine (opened_requireTransaction calm.opened).followed ?_
      rintro _ _ rfl
      refine ensures_bind.mpr ((refuses_validateRole object role).mono ?_ ?_)
      · rintro _ _ ⟨allowed, -⟩
        exact nomatch refused.symm.trans allowed
      · rintro other _ ⟨alsoRefused, rfl⟩
        exact ⟨refused.symm.trans alsoRefused, refl _⟩
    | none =>
      have allows := Registry.refusal?_eq_none_iff.mp refused
      cases found : service.store.find? identity object role with
      | none =>
        refine (spreads_createEntry calm found).mono (fun _ _ _ => rfl) fun _ _ refused => ?_
        exact nomatch allows.symm.trans refused
      | some entry =>
        obtain ⟨listed, rfl, rfl, rfl⟩ := mem_of_find?_grants found
        have held := calm.intact.numbered.mem_entryList.mp listed
        exact (ensures_createEntry_of_holds calm held isRoot allows).mono (fun _ _ _ => rfl)
          fun _ _ => False.elim

theorem refuses_createEntriesForChild (parent child : ObjectRef) :
    Refuses manager service (.createEntriesForChild parent child) := by
  refine ensures_map.mpr ?_
  rw [Task.refusal?_opened calm.opened rfl]
  show Ensures _ _ (fun _ _ => service.registry.unknownClass? child = none) fun fault after =>
    service.registry.unknownClass? child = some fault ∧ _
  unfold Registry.unknownClass?
  cases found : service.registry.get? child.objectClass with
  | none =>
    unfold createEntriesForChild
    refine (opened_requireTransaction calm.opened).followed ?_
    rintro _ service rfl
    simp only [ensures_bind, ensures_get, found]
    exact ensures_throw.mpr ⟨rfl, refl _⟩
  | some childType =>
    exact (passes_createEntriesForChild calm _ found).mono (fun _ _ _ => rfl) fun _ _ => False.elim

/-- An entry that is not stored has no parents and no children, so nothing is done before the store
refuses to delete it. -/
theorem refuses_deleteEntry_of_unstored {entry : Entry}
    (unstored : service.store.get? entry.id = none) (detach : Bool) :
    Ensures (Manager.deleteEntry manager entry detach) service (fun _ _ => False)
      (fun fault after => fault = .storage (.entryNotFound entry.id) ∧ Still service after) := by
  have orphan : service.store.dependenciesOfChild entry.id = [] := by
    refine dependenciesOfChild_eq_nil_iff.mpr ?_
    rintro ⟨dependency, member, isChild⟩
    have stored := (calm.intact.anchored dependency member).2
    rw [isChild, unstored] at stored
    exact absurd stored Bool.false_ne_true
  unfold Manager.deleteEntry deleteFrom
  refine (opened_requireTransaction calm.opened).followed ?_
  rintro _ service rfl
  simp only [ensures_bind, ensures_get]
  unfold deleteTree leaveParents
  refine ensures_bind.mpr ((reachable_read calm.reachable).followed ?_)
  rintro _ middle ⟨rfl, still⟩
  rw [orphan]
  refine ensures_pure.mpr ((reachable_read (calm.still still).reachable).followed ?_)
  rintro _ last ⟨rfl, stillLast⟩
  have still : Still service last := IsTrans.trans _ _ _ still stillLast
  unfold removeEntry
  simp only [ensures_bind]
  refine (reachable_refused (calm.still still).reachable
    (deleteEntry_of_unstored (still.store.symm ▸ unstored))).mono (fun _ _ => False.elim) ?_
  rintro _ _ ⟨same, stillAfter⟩
  exact ⟨same, IsTrans.trans _ _ _ still stillAfter⟩

theorem refuses_deleteEntry {entry : Entry} (agrees : service.store.Agrees entry) (detach : Bool) :
    Refuses manager service (.deleteEntry entry detach) := by
  refine ensures_map.mpr ?_
  rw [Task.refusal?_opened calm.opened rfl]
  show Ensures _ _ (fun _ _ => service.store.refusal? entry detach = none) fun fault after =>
    service.store.refusal? entry detach = some fault ∧ _
  unfold Store.refusal?
  cases stored : service.store.get? entry.id with
  | none =>
    exact (refuses_deleteEntry_of_unstored calm stored detach).mono (fun _ _ => False.elim)
      fun _ _ ⟨same, still⟩ => ⟨congrArg some same.symm, still⟩
  | some other =>
    obtain rfl := agrees other stored
    simp only [Option.isNone_some, Bool.false_eq_true, if_false]
    refine (fells_deleteEntry calm.unhindered stored detach).mono ?_ ?_
    · rintro outcome after ⟨-, -, left⟩
      refine if_pos (Bool.or_eq_true_iff.mpr (left.imp_right fun orphan => ?_))
      rw [dependenciesOfChild_eq_nil_iff.mpr orphan]
      rfl
    · rintro fault after ⟨rfl, rfl, held, still⟩
      refine ⟨if_neg fun free => ?_, still⟩
      have hasParent := hasParent_iff.mpr held
      simp_all

theorem refuses_deleteEntriesForObject (object : ObjectRef) :
    Refuses manager service (.deleteEntriesForObject object) := by
  refine ensures_map.mpr ?_
  rw [Task.refusal?_opened calm.opened rfl]
  obtain ⟨outcome, after, deletes, -⟩ := clears_deleteEntriesForObject calm object
  unfold Ensures
  rw [deletes]
  rfl

theorem refuses_deleteEntriesForChild (mindful : Mindful service) (parent child : ObjectRef) :
    Refuses manager service (.deleteEntriesForChild parent child) := by
  refine ensures_map.mpr ?_
  rw [Task.refusal?_opened calm.opened rfl]
  unfold deleteEntriesForChild
  refine (opened_requireTransaction calm.opened).followed ?_
  rintro _ _ rfl
  refine (reachable_read calm.reachable).followed ?_
  rintro _ middle ⟨rfl, still⟩
  exact (severs_deleteAttachments mindful (fun _ listed => calm.intact.anchored.attaches_iff listed)
    ((Underway.start calm).still still)).mono (fun _ _ _ => rfl) fun _ _ => False.elim

end Calm

/-! ### Runs -/

/-- **A call fails exactly where it is refused, and then nothing has been written.** After any run
of a manager that is alone with an intact store, as long as no collaborator fails, a call that
creates or deletes entries fails with a fault if and only if that can be told beforehand. The store
and the working sets are the same then. The fault is that there is no transaction, that a class is
not registered or lacks the role, that a parent holds the entry, or that the entry to be deleted is
not stored. An entry that is handed over is one that the store holds or has held. -/
theorem fails_iff_refused (fresh : start.Fresh) (intact : start.store.Intact)
    (run : Run (·.OthersSpareStore manager) start past service)
    (reachable : service.outages = .none) (task : Task) (changes : task.changesGrants = true)
    (agrees : ∀ entry ∈ task.arguments, service.store.Agrees entry) :
    (∀ fault, (∃ after, (task.action manager).run.run service = (.error fault, after)) ↔
      task.refusal? manager service = some fault) ∧
    ∀ fault after, (task.action manager).run.run service = (.error fault, after) →
      Still service after ∧ task.MayFailWith service fault := by
  have refuses : Refuses manager service task := by
    cases opened : service.transactions[manager]? with
    | none => exact refuses_closed opened changes
    | some sets =>
      have calm := calm_of_run intact (fresh.idle manager) run (isOpen_of_some opened) reachable
      cases task with
      | createEntry identity object role => exact refuses_createEntry calm identity object role
      | createEntriesForChild parent child => exact refuses_createEntriesForChild calm parent child
      | deleteEntry revoked detach =>
        exact refuses_deleteEntry calm (agrees revoked (.head _)) detach
      | deleteEntriesForObject object => exact refuses_deleteEntriesForObject calm object
      | deleteEntriesForChild parent child =>
        exact refuses_deleteEntriesForChild calm (mindful_of_run fresh run) parent child
      | _ => exact nomatch changes
  refine ⟨fun fault => ⟨?_, fun refused => ?_⟩, fun fault after failed => ?_⟩
  · rintro ⟨after, failed⟩
    exact (refuses.of_error failed).1
  · rcases result : (task.action manager).run.run service with ⟨other | answer, after⟩
    · obtain rfl := Option.some.inj (refused.symm.trans (refuses.of_error result).1)
      exact ⟨after, rfl⟩
    · exact nomatch refused.symm.trans (refuses.of_ok result)
  · obtain ⟨refused, still⟩ := refuses.of_error failed
    exact ⟨still, Task.mayFailWith_of_refusal? refused⟩

/-- An entry that its child upholds is not deleted, and neither is one that is not stored. A role
that the class does not have is not granted. -/
theorem fails_iff_refused_circle :
    (∃ after, ((Task.deleteEntry ⟨1, .user "1", .sample, .reader⟩ false).action 0).run.run .circle =
        (.error (.referenced 1), after) ∧ Still .circle after) ∧
      (∃ after, ((Task.deleteEntry ⟨7, .user "1", .sample, .reader⟩ true).action 0).run.run
        .circle = (.error (.storage (.entryNotFound 7)), after)) ∧
      ∃ after, ((Task.createEntry (.user "1") .sample .owner).action 0).run.run .circle =
        (.error (.invalidRole .sample .owner), after) := by
  have fresh : Service.sampleInCircle.Fresh :=
    ⟨rfl, Service.fresh_sample.idle, Service.fresh_sample.numbered⟩
  have run : Run (·.OthersSpareStore 0) .sampleInCircle _ .circle := .ofEvents (by decide +kernel)
  have refused := fails_iff_refused fresh .empty run rfl
  obtain ⟨held, writesNothing⟩ :=
    refused (.deleteEntry ⟨1, .user "1", .sample, .reader⟩ false) rfl (by decide +kernel)
  obtain ⟨after, failed⟩ := (held (.referenced 1)).mpr (by decide +kernel)
  exact ⟨⟨after, failed, (writesNothing _ _ failed).1⟩,
    ((refused _ rfl (by decide +kernel)).1 _).mpr (by decide +kernel),
    ((refused _ rfl (by decide +kernel)).1 _).mpr (by decide +kernel)⟩

end BookingAccess
