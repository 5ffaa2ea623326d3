/-
**What is loaded.**

Members of groups and projections come from the cache or else from the collaborators. Either way
the call is quiet, and what it gives is what the service knows.

* `ensures_resolveUsers`, `ensures_usersTouchedBy`: the users that an identity stands for;
* `ensures_loadedUserProjection`, `ensures_loadedObjectProjection`: a projection, which is in the
  cache afterwards.
-/

import BookingAccess.Proofs.Service.Quiet
import BookingAccess.Proofs.Store
import BookingAccess.Service.Projections

namespace BookingAccess.Service

open OrderedMap

variable {service : Service}

/-! ### Members of groups -/

theorem membersFor_of_cached {group : GroupId} {members : UserIds}
    (other : group ≠ everyoneGroupId)
    (cached : service.cache.groupMembers[group]? = some members) :
    service.membersFor group = members := by
  simp [membersFor, other, cached]

theorem membersFor_of_missed {group : GroupId}
    (missed : service.cache.groupMembers[group]? = none) :
    service.membersFor group = service.directory.usersOfGroup group := by
  unfold membersFor Directory.usersOfGroup
  rw [missed]
  split <;> rfl

/-- Members that were found in the directory may be remembered. -/
theorem Quiet.putGroupMembers {before after : Service} (quiet : Quiet before after)
    {group : GroupId} {members : Std.ExtTreeSet UserId}
    (missed : before.cache.groupMembers[group]? = none)
    (found : before.directory.members[group]? = some members) :
    Quiet before
      { after with cache := after.cache.putGroupMembers group (.only members) } where
  registry := quiet.registry
  entries := quiet.entries
  lastId := quiet.lastId
  directory := quiet.directory
  transactions := quiet.transactions
  members other := by
    show (after.cache.groupMembers.insert group (.only members))[other]? = _ ∨ _ ∧ ∃ _, _ ∧
      (after.cache.groupMembers.insert group (.only members))[other]? = _
    rw [lookup_insert]
    by_cases same : group = other
    · subst same
      exact .inr ⟨missed, members, found, if_pos rfl⟩
    · simp only [same, if_false]
      exact quiet.members other
  kept := quiet.kept
  users := quiet.users
  objects := quiet.objects

theorem ensures_groupMembers (group : GroupId) :
    Ensures (groupMembers group) service
      (fun users after => users = service.membersFor group ∧ Quiet service after)
      (fun fault after => (fault.isOutage = true ∨
        fault = .groupNotFound group ∧ service.membersFor group = .empty) ∧
        Quiet service after) := by
  unfold groupMembers
  split
  · rename_i builtIn
    rw [beq_iff_eq] at builtIn
    exact ⟨(if_pos builtIn).symm, Quiet.refl service⟩
  · rename_i other
    rw [beq_iff_eq] at other
    unfold rememberedGroupMembers remembered
    simp only [ensures_bind, ensures_get]
    cases cached : service.cache.groupMembers[group]? with
    | some members =>
      exact ⟨(membersFor_of_cached other cached).symm, Quiet.refl service⟩
    | none =>
      simp only [ensures_bind, ensures_ofDirectory, ensures_pure, ensures_modifyCache]
      refine (ensures_directoryRead _ _).mono ?_ ?_
      · rintro members after ⟨answer, quiet⟩
        have found : service.directory.members[group]? = some members := by
          unfold Directory.groupMembers at answer
          split at answer
          · exact Except.ok.inj answer ▸ ‹_›
          · cases answer
        refine ⟨?_, quiet.putGroupMembers cached found⟩
        rw [membersFor_of_missed cached]
        simp [Directory.usersOfGroup, other, found]
      · rintro fault after ⟨refused | outage, quiet⟩
        · refine ⟨.inr ?_, quiet⟩
          unfold Directory.groupMembers at refused
          split at refused
          · cases refused
          · obtain rfl := Except.error.inj refused
            rename_i unknown
            refine ⟨rfl, ?_⟩
            rw [membersFor_of_missed cached]
            simp [Directory.usersOfGroup, other, unknown]
        · exact ⟨.inl (AccessError.isOutage_ofDirectory outage), quiet⟩

theorem ensures_usersOf (identity : Identity) :
    Ensures (usersOf identity) service
      (fun users after => users = service.usersFor identity ∧ Quiet service after)
      (fun fault after => (fault.isOutage = true ∨
        (∃ group, fault = .groupNotFound group) ∧ service.usersFor identity = .empty) ∧
        Quiet service after) := by
  cases identity with
  | user user => exact ⟨rfl, Quiet.refl service⟩
  | group group =>
    refine (ensures_groupMembers group).mono (fun _ _ => id) ?_
    rintro fault after ⟨outage | ⟨unknown, nobody⟩, quiet⟩
    · exact ⟨.inl outage, quiet⟩
    · exact ⟨.inr ⟨⟨group, unknown⟩, nobody⟩, quiet⟩

/-- **An identity is resolved to the users that it stands for.** -/
theorem ensures_resolveUsers (identity : Identity) :
    Ensures (resolveUsers identity) service
      (fun users after => users = service.usersFor identity ∧ Quiet service after)
      (fun fault after => fault.isOutage = true ∧ Quiet service after) := by
  unfold resolveUsers
  rw [ensures_tryCatch]
  refine (ensures_usersOf identity).mono (fun _ _ => id) ?_
  rintro fault after ⟨outage | ⟨⟨group, rfl⟩, nobody⟩, quiet⟩
  · cases fault <;> first | exact ⟨outage, quiet⟩ | exact nomatch outage
  · simp only [ensures_bind, ensures_record, ensures_pure]
    exact ⟨nobody.symm, quiet.trans (.of_same rfl rfl rfl rfl rfl rfl)⟩

/-- The users whose projection may hold an entry are those that its identity stands for, or all. -/
theorem ensures_usersTouchedBy (identity : Identity) :
    Ensures (usersTouchedBy identity) service
      (fun users after => (users = service.usersFor identity ∨ users = .everyone) ∧
        Quiet service after)
      (fun fault after => fault.isOutage = true ∧ Quiet service after) := by
  unfold usersTouchedBy
  rw [ensures_tryCatch]
  refine (ensures_usersOf identity).mono (fun _ _ => And.imp_left .inl) ?_
  rintro fault after ⟨outage | ⟨⟨group, rfl⟩, nobody⟩, quiet⟩
  · cases fault <;> first | exact ⟨outage, quiet⟩ | exact nomatch outage
  · exact ⟨.inr rfl, quiet⟩

/-! ### Projections of users -/

/-- The entries that a load read may be remembered. -/
theorem Quiet.putEntries {before after : Service} (quiet : Quiet before after)
    {entries : List Entry} (stored : ∀ entry ∈ entries, entry ∈ before.store.entryList) :
    Quiet before { after with cache := entries.foldl Cache.putEntry after.cache } := by
  induction entries generalizing after with
  | nil => exact quiet
  | cons entry rest ih =>
    have entryStored := stored entry (.head _)
    have first : Quiet before { after with cache := after.cache.putEntry entry } := by
      refine { quiet with kept := fun id => ?_ }
      show (after.cache.entries.insert entry.id entry)[id]? = _ ∨ ∃ other ∈ _, _ ∧
        (after.cache.entries.insert entry.id entry)[id]? = _
      rw [lookup_insert]
      by_cases same : entry.id = id
      · exact .inr ⟨entry, entryStored, same, if_pos same⟩
      · simp only [same, if_false]
        exact quiet.kept id
    exact ih first fun other member => stored other (.tail _ member)

/-- The projection of a user that was loaded may go on the shelf. -/
theorem Quiet.putUserProjection {before after : Service} (quiet : Quiet before after)
    {user : UserId} (missed : before.cache.userProjections.value? user = none) :
    Quiet before { after with cache := { after.cache with
      userProjections :=
        (after.cache.userProjections.put user (before.userProjectionOf user)).2 } } := by
  refine { quiet with users := fun other => ?_ }
  show (Shelf.put _ user _).2.value? other = _ ∨ _ ∧ (Shelf.put _ user _).2.value? other = _
  rw [Shelf.value?_put]
  by_cases same : user = other
  · subst same
    exact .inr ⟨missed, if_pos rfl⟩
  · simp only [same, if_false]
    exact quiet.users other

theorem ensures_loadUserProjection (user : UserId) :
    Ensures (loadUserProjection user) service
      (fun projection after => projection = service.userProjectionOf user ∧ Quiet service after)
      (fun fault after => fault.isOutage = true ∧ Quiet service after) := by
  unfold loadUserProjection
  simp only [ensures_bind, ensures_outcome, ensures_ofStore, ensures_modifyCache, ensures_get,
    ensures_pure]
  have store (groups : List GroupId) (middle : Service) (asked : Quiet service middle)
      (goes : .user user :: .everyone :: groups.map Identity.group =
        service.directory.identitiesOf user) :
      Ensures (StoreClient.entriesOf (.user user :: .everyone :: groups.map Identity.group)) middle
        (fun entries after =>
          UserProjection.ofEntries after.registry entries = service.userProjectionOf user ∧
            Quiet service { after with cache := entries.foldl Cache.putEntry after.cache })
        (fun fault after => (AccessError.storage fault).isOutage = true ∧
          Quiet service after) := by
    refine (ensures_storeRead _ _).mono ?_ fun _ _ => And.imp_right asked.trans
    rintro entries after ⟨rfl, quiet⟩
    have readFrom : middle.store.entriesOf (.user user :: .everyone :: groups.map Identity.group) =
        service.store.entriesOf (service.directory.identitiesOf user) := by
      unfold Store.entriesOf
      rw [asked.entryList, goes]
    rw [readFrom]
    refine ⟨?_, (asked.trans quiet).putEntries fun _ => Store.mem_entryList_of_mem_entriesOf⟩
    rw [(asked.trans quiet).registry]
    rfl
  refine (ensures_directoryRead _ _).mono ?_ ?_
  · rintro groups middle ⟨answer, asked⟩
    refine store groups middle asked ?_
    simp only [Directory.identitiesOf, answer]
  · rintro fault middle ⟨refused | outage, asked⟩
    · have unknown : fault = .userNotFound user := by
        unfold Directory.groupsOfUser at refused
        split at refused
        · cases refused
        · exact (Except.error.inj refused).symm
      subst unknown
      simp only [ensures_bind, ensures_pure, ensures_ofStore, ensures_modifyCache, ensures_get]
      refine store [] middle asked ?_
      simp only [Directory.identitiesOf, refused]
    · cases fault with
      | unavailable cause => exact ⟨rfl, asked⟩
      | _ => cases outage

/-- **The projection of a user is in the cache once it was asked for.** -/
theorem ensures_loadedUserProjection (user : UserId) :
    Ensures (loadedUserProjection user) service
      (fun loaded after =>
        after.cache.userProjections.value? user = some loaded.value ∧ Quiet service after)
      (fun fault after => fault.isOutage = true ∧ Quiet service after) := by
  unfold loadedUserProjection rememberedUserProjection
  simp only [ensures_bind, ensures_get]
  cases found : service.cache.userProjections.get? user with
  | some loaded =>
    refine ⟨?_, Quiet.refl service⟩
    unfold Shelf.value?
    rw [found]
    rfl
  | none =>
    have missed : service.cache.userProjections.value? user = none := by
      unfold Shelf.value?
      rw [found]
      rfl
    simp only [ensures_bind, ensures_get, ensures_modifyCache, ensures_pure]
    refine (ensures_loadUserProjection user).mono ?_ fun _ _ => id
    rintro projection after ⟨rfl, quiet⟩
    refine ⟨?_, quiet.putUserProjection missed⟩
    show (Shelf.put _ user _).2.value? user = _
    rw [Shelf.value?_put, if_pos rfl]
    rfl

/-! ### Projections of objects -/

/-- The projection of an object that was loaded may go on the shelf. -/
theorem Quiet.putObjectProjection {before after : Service} (quiet : Quiet before after)
    {object : ObjectRef} (missed : before.cache.objectProjections.value? object = none) :
    Quiet before { after with cache := { after.cache with
      objectProjections :=
        (after.cache.objectProjections.put object (before.objectProjectionOf object)).2 } } := by
  refine { quiet with objects := fun other => ?_ }
  show (Shelf.put _ object _).2.value? other = _ ∨ _ ∧ (Shelf.put _ object _).2.value? other = _
  rw [Shelf.value?_put]
  by_cases same : object = other
  · subst same
    exact .inr ⟨missed, if_pos rfl⟩
  · simp only [same, if_false]
    exact quiet.objects other

/-- Entries of the store are worked in with the users that they stand for. -/
theorem ensures_resolveEntries {entries : List Entry} {middle : Service}
    {projection : ObjectProjection} (asked : Quiet service middle)
    (stored : ∀ entry ∈ entries, entry ∈ service.store.entryList) :
    Ensures (resolveEntries projection entries) middle
      (fun resolved after =>
        resolved = entries.foldl
          (fun kept entry => (kept.add entry (service.usersFor entry.identity)).2) projection ∧
        Quiet service after)
      (fun fault after => fault.isOutage = true ∧ Quiet service after) := by
  induction entries generalizing middle projection with
  | nil => exact ⟨rfl, asked⟩
  | cons entry rest ih =>
    unfold resolveEntries
    simp only [ensures_bind, ensures_modifyCache]
    refine (ensures_resolveUsers entry.identity).mono ?_
      fun _ _ => And.imp_right asked.trans
    rintro users after ⟨rfl, quiet⟩
    rw [asked.usersFor_eq]
    refine ih ?_ fun other member => stored other (.tail _ member)
    have entryStored : ∀ other ∈ [entry], other ∈ service.store.entryList :=
      fun other member => stored other (List.mem_singleton.mp member ▸ .head _)
    exact (asked.trans quiet).putEntries entryStored

theorem ensures_loadObjectProjection (object : ObjectRef) :
    Ensures (loadObjectProjection object) service
      (fun projection after => projection = service.objectProjectionOf object ∧
        Quiet service after)
      (fun fault after => fault.isOutage = true ∧ Quiet service after) := by
  unfold loadObjectProjection
  simp only [ensures_bind, ensures_ofStore]
  refine (ensures_storeRead _ _).mono ?_ fun _ _ => id
  rintro entries middle ⟨rfl, asked⟩
  exact ensures_resolveEntries asked fun _ => Store.mem_entryList_of_mem_entriesOn

/-- **The projection of an object is in the cache once it was asked for.** -/
theorem ensures_loadedObjectProjection (object : ObjectRef) :
    Ensures (loadedObjectProjection object) service
      (fun loaded after =>
        after.cache.objectProjections.value? object = some loaded.value ∧ Quiet service after)
      (fun fault after => fault.isOutage = true ∧ Quiet service after) := by
  unfold loadedObjectProjection rememberedObjectProjection
  simp only [ensures_bind, ensures_get]
  cases found : service.cache.objectProjections.get? object with
  | some loaded =>
    refine ⟨?_, Quiet.refl service⟩
    unfold Shelf.value?
    rw [found]
    rfl
  | none =>
    have missed : service.cache.objectProjections.value? object = none := by
      unfold Shelf.value?
      rw [found]
      rfl
    simp only [ensures_bind, ensures_get, ensures_modifyCache, ensures_pure]
    refine (ensures_loadObjectProjection object).mono ?_ fun _ _ => id
    rintro projection after ⟨rfl, quiet⟩
    refine ⟨?_, quiet.putObjectProjection missed⟩
    show (Shelf.put _ object _).2.value? object = _
    rw [Shelf.value?_put, if_pos rfl]
    rfl

end BookingAccess.Service
