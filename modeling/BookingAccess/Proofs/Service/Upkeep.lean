/-
**What becomes of the projections of users.**

Whatever is asked, committed or left alone, a cached projection of a user is loaded or is kept up to
date with entries that the service takes to concern the user. Nothing is assumed of the call: it may
fail half way, and what is handed over may be made up.

* `Suits`: the service takes an entry to concern a user; with the right members in the cache it
  applies (`suits_iff`);
* `Upkeep`: the relation between the states before and after; reading keeps it;
* `keeps_applyAddition`, `keeps_applyRemoval`, `upkeep_commit`: so does a commit;
* `upkeep_of_event`: so does every event but a change of a group and a clearing of the cache.
-/

import BookingAccess.Proofs.Projection.Derived
import BookingAccess.Proofs.Transaction.Surroundings

namespace BookingAccess

namespace Service

open UserProjection

variable {before middle after service : Service} {manager : ManagerId}

/-! ### Whom an entry concerns -/

/-- The service takes the entry to concern the user: by the directory, or by the members that it
remembers. -/
def Suits (service : Service) (user : UserId) (entry : Entry) : Prop :=
  service.directory.Applies user entry.identity ∨
    (service.usersFor entry.identity).contains user = true

theorem suits_iff (known : MembersKnown service.cache service.directory) {user : UserId}
    {entry : Entry} : service.Suits user entry ↔ service.directory.Applies user entry.identity := by
  unfold Suits
  rw [usersFor_eq_of_known known, Directory.contains_usersOf_iff, or_self]

/-! ### Upkeep -/

/-- The groups are the same, and the projections of users are loaded or kept up to date. -/
structure Upkeep (before after : Service) : Prop where
  registry : after.registry = before.registry
  directory : after.directory = before.directory
  members : ∀ group : GroupId,
    after.cache.groupMembers[group]? = before.cache.groupMembers[group]? ∨
      before.cache.groupMembers[group]? = none ∧
        ∃ members, before.directory.members[group]? = some members ∧
          after.cache.groupMembers[group]? = some (.only members)
  users : ∀ {user projection}, after.cache.userProjections.value? user = some projection →
    Derived before.registry (before.Suits user) (before.cache.userProjections.value? user)
      projection

namespace Upkeep

theorem usersFor_eq (upkeep : Upkeep before after) : after.usersFor = before.usersFor := by
  funext identity
  cases identity with
  | user user => rfl
  | group group =>
    show after.membersFor group = before.membersFor group
    unfold membersFor
    rw [upkeep.directory]
    rcases upkeep.members group with same | ⟨absent, members, found, loaded⟩
    · rw [same]
    · by_cases builtIn : group = everyoneGroupId
      · simp [builtIn]
      · simp [builtIn, absent, loaded, Directory.usersOfGroup, found]

theorem suits_eq (upkeep : Upkeep before after) (user : UserId) :
    after.Suits user = before.Suits user := by
  unfold Suits
  rw [upkeep.directory, upkeep.usersFor_eq]

/-- The members that are remembered are still the right ones. -/
theorem known (upkeep : Upkeep before after) (known : MembersKnown before.cache before.directory) :
    MembersKnown after.cache after.directory := by
  intro group members found
  rw [upkeep.directory]
  rcases upkeep.members group with same | ⟨_, users, kept, loaded⟩
  · exact known (same ▸ found)
  · exact ⟨users, kept, Option.some.inj (found.symm.trans loaded)⟩

theorem of_same (registry : after.registry = before.registry)
    (directory : after.directory = before.directory)
    (members : after.cache.groupMembers = before.cache.groupMembers)
    (users : after.cache.userProjections = before.cache.userProjections) : Upkeep before after where
  registry := registry
  directory := directory
  members group := .inl (by rw [members])
  users found := .kept (users ▸ found)

instance : IsPreorder Service Upkeep where
  refl _ := .of_same rfl rfl rfl rfl
  trans before middle after first second := by
    refine ⟨second.registry.trans first.registry, second.directory.trans first.directory,
      fun group => ?_, fun {user projection} found => ?_⟩
    · have later := second.members group
      rw [first.directory] at later
      have := first.members group
      grind
    · have derived := second.users found
      rw [first.registry, first.suits_eq] at derived
      exact .trans first.users derived

/-- Entries that the store is asked for apply to the user. -/
theorem suits_of_mem_entriesOf {user : UserId} {entry : Entry}
    (listed : entry ∈ service.store.entriesOf (service.directory.identitiesOf user)) :
    service.Suits user entry := by
  have goes : entry.identity ∈ service.directory.identitiesOf user := by
    simpa using (List.mem_filter.mp listed).2
  exact .inl (Directory.applies_of_mem_identitiesOf goes)

theorem ofQuiet (quiet : Quiet before after) : Upkeep before after where
  registry := quiet.registry
  directory := quiet.directory
  members := quiet.members
  users {user projection} found := by
    rcases quiet.users user with same | ⟨_, loaded⟩
    · exact .kept (same ▸ found)
    · obtain rfl := Option.some.inj (found.symm.trans loaded)
      exact derived_ofEntries fun _ => suits_of_mem_entriesOf

theorem ofSurroundings (same : SameSurroundings before after) : Upkeep before after :=
  .of_same same.registry same.directory (by rw [same.cache]) (by rw [same.cache])

/-- **Reading keeps projections up.** -/
instance : KeptByReading Upkeep := KeptByReading.mono fun _ _ (quiet : Quiet _ _) => ofQuiet quiet

instance : KeptBySwitching Upkeep where
  setMode _ _ := .modify fun _ => .of_same rfl rfl rfl rfl

end Upkeep

/-! ### Entries that are worked in and out -/

/-- A part of the cache that projections of users are not made of may change. -/
theorem keeps_modifyCache {change : Cache → Cache}
    (members : ∀ cache, (change cache).groupMembers = cache.groupMembers)
    (users : ∀ cache, (change cache).userProjections = cache.userProjections) :
    Keeps Upkeep (modifyCache change) :=
  fun service => .of_same rfl rfl (members service.cache) (users service.cache)

/-- A projection may be brought up to date. -/
theorem upkeep_update {user : UserId} {change : UserProjection → UserProjection}
    (derives : ∀ {projection}, service.cache.userProjections.value? user = some projection →
      Derived service.registry (service.Suits user)
        (service.cache.userProjections.value? user) (change projection)) :
    KeepsAt Upkeep service (updateUserProjection user change) := by
  refine ⟨rfl, rfl, fun _ => .inl rfl, fun {other projection} found => ?_⟩
  have found : (service.cache.userProjections.update user change).value? other =
    some projection := found
  rw [Shelf.value?_update] at found
  split at found
  · subst other
    obtain ⟨earlier, was, rfl⟩ := Option.map_eq_some_iff.mp found
    exact derives was
  · exact .kept found

/-- All of them may. -/
theorem upkeep_updateAll {change : UserProjection → UserProjection}
    (derives : ∀ {user projection},
      service.cache.userProjections.value? user = some projection →
        Derived service.registry (service.Suits user)
          (service.cache.userProjections.value? user) (change projection)) :
    KeepsAt Upkeep service (updateUserProjections change) := by
  refine ⟨rfl, rfl, fun _ => .inl rfl, fun {user projection} found => ?_⟩
  have found : (service.cache.userProjections.updateAll change).value? user =
    some projection := found
  rw [Shelf.value?_updateAll] at found
  obtain ⟨earlier, was, rfl⟩ := Option.map_eq_some_iff.mp found
  exact derives was

theorem upkeep_addToUsers {entry : Entry} {users : List UserId}
    (suit : ∀ user ∈ users, service.Suits user entry) :
    KeepsAt Upkeep service (addToUsers entry users) := by
  induction users generalizing service with
  | nil => exact .pure
  | cons user users ih =>
    have rest (middle : Service) (upkeep : Upkeep service middle) :
        KeepsAt Upkeep middle (addToUsers entry users) :=
      ih fun other member => by
        rw [upkeep.suits_eq]
        exact suit other (.tail _ member)
    unfold addToUsers
    split
    · refine .bind (KeptByReading.loadedUserProjection user service) fun _ loaded asked => .get ?_
      refine .bind (upkeep_update fun found => .add entry (.kept found) ?_)
        fun _ after updated => rest after (IsTrans.trans _ _ _ asked updated)
      rw [asked.suits_eq]
      exact suit user (.head _)
    · exact rest service (refl _)

theorem keeps_removeFromUsers (entry : Entry) (users : List UserId) :
    Keeps Upkeep (removeFromUsers entry users) := by
  induction users with
  | nil => exact .pure
  | cons user users ih =>
    intro service
    exact KeepsAt.get (.bind (upkeep_update fun found => .remove entry (.kept found))
      fun _ after _ => ih after)

/-- **An addition is worked in for users whom it concerns.** -/
theorem keeps_objectGains (entry : Entry) (users : UserIds) : Keeps Upkeep (do
    match (← get).cache.objectProjections.get? entry.object with
    | some _ => updateObjectProjection entry.object fun projection =>
        (projection.add entry users).2
    | none =>
      let _ ← loadedObjectProjection entry.object) := by
  refine .bind .get fun current => ?_
  split
  · exact keeps_modifyCache (fun _ => rfl) fun _ => rfl
  · exact .bind (KeptByReading.loadedObjectProjection _) fun _ => .pure

theorem keeps_applyAddition (entry : Entry) : Keeps Upkeep (applyAddition entry) := by
  intro service
  have remembers : Keeps Upkeep (modifyCache fun cache => cache.putEntry entry) :=
    keeps_modifyCache (fun _ => rfl) fun _ => rfl
  unfold applyAddition
  refine KeepsAt.bind (remembers service) fun _ started _ => ?_
  have resolves : Ensures (resolveUsers entry.identity) started
      (fun users after => Upkeep started after ∧ users = after.usersFor entry.identity)
      fun _ => Upkeep started := by
    refine (ensures_resolveUsers entry.identity).mono ?_ fun _ _ failed => .ofQuiet failed.2
    rintro users after ⟨rfl, quiet⟩
    exact ⟨.ofQuiet quiet, by rw [quiet.usersFor_eq]⟩
  refine KeepsAt.bindKnown resolves fun users middle _ resolved => ?_
  have suits {user : UserId} (member : users.contains user = true) : middle.Suits user entry :=
    .inr (resolved ▸ member)
  split
  · refine KeepsAt.get (KeepsAt.bind ?_ fun _ after _ => keeps_objectGains entry _ after)
    exact upkeep_updateAll fun found => .add entry (.kept found) (suits rfl)
  · refine KeepsAt.bind (upkeep_addToUsers fun user member => suits ?_) fun _ after _ =>
      keeps_objectGains entry _ after
    exact Std.ExtTreeSet.contains_iff_mem.mpr (Std.ExtTreeSet.mem_toList.mp member)

theorem keeps_applyRemoval (entry : Entry) : Keeps Upkeep (applyRemoval entry) := by
  have touches : Keeps Upkeep (usersTouchedBy entry.identity) := fun _ =>
    (ensures_usersTouchedBy entry.identity).mono (fun _ _ asked => .ofQuiet asked.2)
      fun _ _ failed => .ofQuiet failed.2
  have object : Keeps Upkeep
      (updateObjectProjection entry.object fun projection => (projection.remove entry).2) :=
    keeps_modifyCache (fun _ => rfl) fun _ => rfl
  unfold applyRemoval
  refine .bind (keeps_modifyCache (fun _ => rfl) fun _ => rfl) fun _ => .bind touches fun users => ?_
  split
  · exact fun service => KeepsAt.get <| KeepsAt.bind
      (upkeep_updateAll fun found => .remove entry (.kept found)) fun _ after _ => object after
  · exact .bind (keeps_removeFromUsers entry _) fun _ => object

/-! ### Events -/

open Manager

/-- **A commit keeps projections up**, wherever it stops. -/
theorem upkeep_commit : Keeps Upkeep (commit manager) := by
  have closes : Keeps Upkeep (close manager) := fun _ =>
    ensures_close.mono (fun _ _ ⟨_, closed⟩ => closed ▸ .of_same rfl rfl rfl rfl)
      fun _ _ ⟨_, same⟩ => same ▸ refl _
  unfold commit
  refine .bind closes fun sets => .bind (.forM keeps_applyAddition) fun _ => ?_
  refine .bind (.forM keeps_applyRemoval) fun _ => .bind (.forM keeps_applyRemoval) fun _ => ?_
  exact KeptByReading.record _

theorem upkeep_task (task : Task) : Keeps Upkeep (task.action manager) := by
  cases boundary : task.isBoundary with
  | false => exact (Task.manages boundary).mono fun _ _ => .ofSurroundings
  | true =>
    cases task with
    | commit => exact upkeep_commit
    | begin =>
      intro service
      refine ensures_begin.mono ?_ fun _ _ same => same ▸ refl _
      rintro _ _ ⟨-, rfl⟩
      exact .of_same rfl rfl rfl rfl
    | rollback =>
      intro service
      exact ensures_rollback.mono (fun _ _ closes => closes ▸ .of_same rfl rfl rfl rfl)
        fun _ _ refused => refused.2 ▸ refl _
    | _ => exact absurd boundary Bool.false_ne_true

end Service

/-- **Every event keeps projections up**, unless it changes a group or clears the cache. -/
theorem upkeep_of_event {occurrence : Occurrence} (noGroupChange : occurrence.NoGroupChange)
    (noClearing : occurrence.NoClearing) : Service.Upkeep occurrence.before occurrence.after := by
  obtain ⟨before, event⟩ := occurrence
  cases event with
  | outages failing => exact .of_same rfl rfl rfl rfl
  | graph objects => exact .of_same rfl rfl rfl rfl
  | call made =>
    cases made with
    | ask question => exact question.keeps.after before
    | regroup change => exact absurd rfl (noGroupChange change)
    | clearCache => exact absurd rfl noClearing
    | manage manager task => exact (Service.upkeep_task task).after before

end BookingAccess
