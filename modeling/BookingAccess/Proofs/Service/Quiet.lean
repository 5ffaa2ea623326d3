/-
**Calls that change no grant.**

A call is quiet when it leaves the entries of the store, the directory and the open transactions
alone, and the cache only gains what a load finds: the members of a group as the directory has
them, an entry as the store has it, a projection as the store and the directory give it.

* `Quiet`: the relation between the states before and after; it is reflexive and transitive;
* `Quiet.of_same`, `Aside`: steps of which it is plain;
* `Quiet.usersFor_eq`: a quiet call does not change the users that an identity stands for.
-/

import BookingAccess.Proofs.Directory.Membership
import BookingAccess.Proofs.Projection.Object
import BookingAccess.Proofs.Projection.User
import BookingAccess.Proofs.Service.Asking
import BookingAccess.Service.Remembering

namespace BookingAccess.Service

/-! ### What a load would find -/

/-- The members of a group, as far as the service knows: members that it remembers go before those
in the directory. -/
def membersFor (service : Service) (group : GroupId) : UserIds :=
  if group = everyoneGroupId then .everyone
  else service.cache.groupMembers[group]?.getD (service.directory.usersOfGroup group)

/-- The users that an identity stands for, as far as the service knows. -/
def usersFor (service : Service) : Identity → UserIds
  | .user user => .single user
  | .group group => service.membersFor group

/-- The projection that a user would be given now. -/
def userProjectionOf (service : Service) (user : UserId) : UserProjection :=
  .ofEntries service.registry (service.store.entriesOf (service.directory.identitiesOf user))

/-- The projection that an object would be given now. -/
def objectProjectionOf (service : Service) (object : ObjectRef) : ObjectProjection :=
  .ofEntries service.usersFor (service.store.entriesOn object)

/-- Nothing about grants changes, and the cache gains only what a load finds. -/
structure Quiet (before after : Service) : Prop where
  registry : after.registry = before.registry
  entries : after.store.entries = before.store.entries
  lastId : after.store.lastId = before.store.lastId
  directory : after.directory = before.directory
  transactions : after.transactions = before.transactions
  members : ∀ group : GroupId,
    after.cache.groupMembers[group]? = before.cache.groupMembers[group]? ∨
      before.cache.groupMembers[group]? = none ∧
        ∃ members, before.directory.members[group]? = some members ∧
          after.cache.groupMembers[group]? = some (.only members)
  kept : ∀ id : EntryId, after.cache.entries[id]? = before.cache.entries[id]? ∨
    ∃ entry ∈ before.store.entryList, entry.id = id ∧ after.cache.entries[id]? = some entry
  users : ∀ user,
    after.cache.userProjections.value? user = before.cache.userProjections.value? user ∨
      before.cache.userProjections.value? user = none ∧
        after.cache.userProjections.value? user = some (before.userProjectionOf user)
  objects : ∀ object,
    after.cache.objectProjections.value? object = before.cache.objectProjections.value? object ∨
      before.cache.objectProjections.value? object = none ∧
        after.cache.objectProjections.value? object = some (before.objectProjectionOf object)

namespace Quiet

variable {before middle after : Service}

theorem entryList (quiet : Quiet before after) : after.store.entryList = before.store.entryList :=
  congrArg (·.values) quiet.entries

theorem get? (quiet : Quiet before after) (id : EntryId) :
    after.store.get? id = before.store.get? id :=
  congrArg (·[id]?) quiet.entries

/-- A group that is remembered anew had the same members in the directory. -/
theorem membersFor_eq (quiet : Quiet before after) (group : GroupId) :
    after.membersFor group = before.membersFor group := by
  unfold membersFor
  rw [quiet.directory]
  rcases quiet.members group with same | ⟨absent, members, found, loaded⟩
  · rw [same]
  · by_cases builtIn : group = everyoneGroupId
    · simp [builtIn]
    · simp [builtIn, absent, loaded, Directory.usersOfGroup, found]

theorem usersFor_eq (quiet : Quiet before after) : after.usersFor = before.usersFor := by
  funext identity
  cases identity with
  | user user => rfl
  | group group => exact quiet.membersFor_eq group

theorem userProjectionOf_eq (quiet : Quiet before after) (user : UserId) :
    after.userProjectionOf user = before.userProjectionOf user := by
  unfold userProjectionOf Store.entriesOf
  rw [quiet.registry, quiet.directory, quiet.entryList]

theorem objectProjectionOf_eq (quiet : Quiet before after) (object : ObjectRef) :
    after.objectProjectionOf object = before.objectProjectionOf object := by
  unfold objectProjectionOf Store.entriesOn
  rw [quiet.usersFor_eq, quiet.entryList]

/-- What else the service keeps may change. -/
theorem of_same (registry : after.registry = before.registry)
    (entries : after.store.entries = before.store.entries)
    (lastId : after.store.lastId = before.store.lastId)
    (directory : after.directory = before.directory)
    (transactions : after.transactions = before.transactions)
    (cache : after.cache = before.cache) : Quiet before after := by
  refine ⟨registry, entries, lastId, directory, transactions, fun _ => .inl ?_, fun _ => .inl ?_,
    fun _ => .inl ?_, fun _ => .inl ?_⟩
  all_goals rw [cache]

protected theorem refl (service : Service) : Quiet service service :=
  .of_same rfl rfl rfl rfl rfl rfl

protected theorem trans (first : Quiet before middle) (second : Quiet middle after) :
    Quiet before after where
  registry := second.registry.trans first.registry
  entries := second.entries.trans first.entries
  lastId := second.lastId.trans first.lastId
  directory := second.directory.trans first.directory
  transactions := second.transactions.trans first.transactions
  members group := by
    have laterMembers := second.members group
    rw [first.directory] at laterMembers
    have := first.members group
    grind
  kept id := by
    have laterKept := second.kept id
    rw [first.entryList] at laterKept
    have := first.kept id
    grind
  users user := by
    have laterUsers := second.users user
    rw [first.userProjectionOf_eq] at laterUsers
    have := first.users user
    grind
  objects object := by
    have laterObjects := second.objects object
    rw [first.objectProjectionOf_eq] at laterObjects
    have := first.objects object
    grind

/-- Entries that are remembered are not forgotten. -/
theorem cached (quiet : Quiet before after) {id : EntryId}
    (found : before.cache.entries[id]?.isSome = true) :
    after.cache.entries[id]?.isSome = true := by
  rcases quiet.kept id with same | ⟨_, _, _, loaded⟩
  · rwa [same]
  · rw [loaded]
    rfl

instance : IsPreorder Service Quiet where
  refl := Quiet.refl
  trans _ _ _ := Quiet.trans

end Quiet

/-! ### Parts of the cache that no projection is made of -/

/-- The parts of the cache that grants are answered from stay the same. -/
structure Aside (before after : Cache) : Prop where
  entries : after.entries = before.entries
  groupMembers : after.groupMembers = before.groupMembers
  userProjections : after.userProjections = before.userProjections
  objectProjections : after.objectProjections = before.objectProjections

theorem Quiet.aside {service : Service} {cache : Cache} (aside : Aside service.cache cache) :
    Quiet service { service with cache := cache } := by
  refine ⟨rfl, rfl, rfl, rfl, rfl, fun group => .inl ?_, fun id => .inl ?_, fun user => .inl ?_,
    fun object => .inl ?_⟩
  · exact congrArg (·[group]?) aside.groupMembers
  · exact congrArg (·[id]?) aside.entries
  · exact congrArg (·.value? user) aside.userProjections
  · exact congrArg (·.value? object) aside.objectProjections

variable {α : Type}

theorem keeps_record (event : AuditEvent) : Keeps Quiet (record event) :=
  fun _ => Quiet.of_same rfl rfl rfl rfl rfl rfl

/-! ### Questions to the collaborators -/

theorem ensures_storeRead {service : Service} (kind : StoreCall) (answer : Store → α) :
    Ensures (StoreClient.read kind answer) service
      (fun value after => value = answer service.store ∧ Quiet service after)
      (fun fault after => fault.isOutage = true ∧ Quiet service after) := by
  refine (ensures_storeCall kind _).mono ?_ ?_
  · rintro value after ⟨store, result, rfl⟩
    obtain ⟨rfl, rfl⟩ := Prod.mk.inj (Except.ok.inj result)
    exact ⟨rfl, Quiet.of_same rfl rfl rfl rfl rfl rfl⟩
  · rintro fault after ⟨refused | outage, rfl⟩
    · exact nomatch refused
    · exact ⟨outage, Quiet.of_same rfl rfl rfl rfl rfl rfl⟩

theorem ensures_directoryRead {service : Service} (kind : DirectoryCall)
    (answer : Directory → Except DirectoryError α) :
    Ensures (DirectoryClient.read kind answer) service
      (fun value after => answer service.directory = .ok value ∧ Quiet service after)
      (fun fault after => (answer service.directory = .error fault ∨ fault.isOutage = true) ∧
        Quiet service after) := by
  refine (ensures_directoryCall kind _).mono ?_ ?_
  · rintro value after ⟨directory, result, rfl⟩
    cases answered : answer service.directory with
    | error fault =>
      rw [answered] at result
      exact nomatch result
    | ok found =>
      rw [answered] at result
      obtain ⟨rfl, rfl⟩ := Prod.mk.inj (Except.ok.inj result)
      exact ⟨rfl, Quiet.of_same rfl rfl rfl rfl rfl rfl⟩
  · rintro fault after ⟨refused | outage, lookups, rfl⟩
    · cases answered : answer service.directory with
      | error cause =>
        rw [answered] at refused
        exact ⟨.inl (congrArg _ (Except.error.inj refused)), Quiet.of_same rfl rfl rfl rfl rfl rfl⟩
      | ok found =>
        rw [answered] at refused
        exact nomatch refused
    · exact ⟨.inr outage, Quiet.of_same rfl rfl rfl rfl rfl rfl⟩

theorem keeps_storeRead (kind : StoreCall) (answer : Store → α) :
    Keeps Quiet (StoreClient.read kind answer) := fun _ =>
  (ensures_storeRead kind answer).mono (fun _ _ => And.right) fun _ _ => And.right

theorem keeps_directoryRead (kind : DirectoryCall) (answer : Directory → Except DirectoryError α) :
    Keeps Quiet (DirectoryClient.read kind answer) := fun _ =>
  (ensures_directoryRead kind answer).mono (fun _ _ => And.right) fun _ _ => And.right

theorem keeps_children (parent : ObjectRef) (relation : String) :
    Keeps Quiet (GraphClient.children parent relation) := fun _ =>
  (ensures_children parent relation).mono
    (fun _ _ ⟨_, asked⟩ => asked ▸ Quiet.of_same rfl rfl rfl rfl rfl rfl)
    fun _ _ ⟨_, asked⟩ => asked ▸ Quiet.of_same rfl rfl rfl rfl rfl rfl

end BookingAccess.Service
