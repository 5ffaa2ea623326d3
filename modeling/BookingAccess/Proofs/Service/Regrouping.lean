/-
**What a change of a group leaves.**

A change of a group goes to the directory and then to the cache. The users whose membership changed
lose their projection, so that every projection that stays is still right.

* `Regrouped`: the relation between the states before and after;
* `Regrouped.tidy`, `Regrouped.misses` and so on: what it keeps;
* `ensures_regroup`: every call that changes a group ends so, or was quiet.
-/

import BookingAccess.Proofs.Cache.Tidy
import BookingAccess.Proofs.Directory.Change
import BookingAccess.Proofs.Run
import BookingAccess.Proofs.Service.Loading

namespace BookingAccess.Service

open OrderedMap

variable {given : EntryId → Option Entry} {before after service : Service} {entry : Entry}

/-- The groups have changed, and the users who are in others now have lost their projection. -/
structure Regrouped (before after : Service) : Prop where
  registry : after.registry = before.registry
  store : after.store = before.store
  transactions : after.transactions = before.transactions
  entries : after.cache.entries = before.cache.entries
  objects : after.cache.objectProjections = before.cache.objectProjections
  sound : after.directory.Sound
  members : MembersKnown after.cache after.directory
  users : ∀ {user projection}, after.cache.userProjections.value? user = some projection →
    before.cache.userProjections.value? user = some projection ∧
      before.directory.SameGroups after.directory user

namespace Regrouped

theorem tidy (regrouped : Regrouped before after) (tidy : Tidy given before) :
    Tidy given after where
  own := tidy.own
  numbered := regrouped.store ▸ tidy.numbered
  stored found := tidy.stored (regrouped.store ▸ found)
  members := regrouped.members
  kept found := tidy.kept (regrouped.entries ▸ found)
  settled found := by
    rw [regrouped.registry]
    exact tidy.settled (regrouped.users found).1
  applies {_ _} found {_ _} held := by
    obtain ⟨earlier, same⟩ := regrouped.users found
    obtain ⟨isGiven, applies⟩ := tidy.applies earlier held
    exact ⟨isGiven, same.applies_iff.mpr applies⟩
  summed found := tidy.summed (regrouped.objects ▸ found)
  located {_ _} found {_ _} held := tidy.located (regrouped.objects ▸ found) held

theorem refers (regrouped : Regrouped before after) (refers : Refers after entry) :
    Refers before entry := by
  unfold Refers at *
  rw [regrouped.entries, regrouped.objects] at refers
  refine refers.imp_right (Or.imp_left ?_)
  rintro ⟨user, projection, found, mentions⟩
  exact ⟨user, projection, (regrouped.users found).1, mentions⟩

theorem misses (regrouped : Regrouped before after) {user : UserId}
    (misses : Misses after entry user) : Misses before entry user := by
  obtain ⟨notRoot, goes, projection, found, lacks⟩ := misses
  obtain ⟨earlier, same⟩ := regrouped.users found
  exact ⟨notRoot, same.mem_identitiesOf_iff.mp goes, projection, earlier, lacks⟩

theorem missesOn (regrouped : Regrouped before after) (misses : MissesOn after entry) :
    MissesOn before entry := by
  unfold MissesOn at *
  rwa [regrouped.objects] at misses

end Regrouped

/-- A call that may have asked first, and then changed the groups or not. -/
def Regroups (before after : Service) : Prop :=
  Quiet before after ∨ ∃ middle, Quiet before middle ∧ Regrouped middle after

/-! ### The cache after a change -/

/-- A group that was changed or removed loses its members, and all projections stay. -/
theorem membersKnown_erase {cache : Cache} {directory changed : Directory} {group : GroupId}
    (known : MembersKnown cache directory)
    (elsewhere : ∀ other, other ≠ group → changed.members[other]? = directory.members[other]?) :
    MembersKnown { cache with groupMembers := cache.groupMembers.erase group } changed := by
  intro other members found
  have found : (cache.groupMembers.erase group)[other]? = some members := found
  rw [lookup_erase] at found
  split at found
  · exact nomatch found
  · rename_i different
    rw [elsewhere other (Ne.symm different)]
    exact known found

/-- Many users lose their projection. -/
theorem value?_foldl_removeUserProjection (users : List UserId) (cache : Cache) (user : UserId) :
    (users.foldl Cache.removeUserProjection cache).userProjections.value? user =
      if user ∈ users then none else cache.userProjections.value? user := by
  induction users generalizing cache with
  | nil => rfl
  | cons first rest ih =>
    rw [List.foldl_cons, ih]
    show (if _ then none else (cache.userProjections.evict first).value? user) = _
    rw [Shelf.value?_evict]
    grind

/-- Nothing else is lost. -/
theorem foldl_removeUserProjection (users : List UserId) (cache : Cache) :
    (users.foldl Cache.removeUserProjection cache).entries = cache.entries ∧
      (users.foldl Cache.removeUserProjection cache).objectProjections = cache.objectProjections ∧
        (users.foldl Cache.removeUserProjection cache).groupMembers = cache.groupMembers := by
  induction users generalizing cache with
  | nil => exact ⟨rfl, rfl, rfl⟩
  | cons first rest ih => exact ih (cache.removeUserProjection first)

/-- After a change of one member, the members that are remembered are still the right ones. -/
theorem membersKnown_membershipChanged {cache : Cache} {directory changed : Directory}
    {group : GroupId} {user : UserId} (known : MembersKnown cache directory)
    {change : UserIds → UserIds} {members replaced : Std.ExtTreeSet UserId}
    (found : directory.members[group]? = some members)
    (changes : change (.only members) = .only replaced)
    (inserted : changed.members = directory.members.insert group replaced) :
    MembersKnown (membershipChanged group user change cache) changed := by
  intro other listed held
  rw [inserted, lookup_insert]
  unfold membershipChanged at held
  split at held
  · rename_i kept cached
    obtain ⟨users, again, rfl⟩ := known cached
    obtain rfl := Option.some.inj (found.symm.trans again)
    change (cache.groupMembers.insert group (change (.only members)))[other]? = some listed at held
    rw [lookup_insert] at held
    split at held
    · exact ⟨replaced, if_pos ‹_›, (Option.some.inj held).symm.trans changes⟩
    · rw [if_neg ‹_›]
      exact known held
  · rename_i missed
    by_cases same : group = other
    · subst same
      cases missed.symm.trans held
    · rw [if_neg same]
      exact known held

theorem userProjections_membershipChanged (group : GroupId) (user : UserId)
    (change : UserIds → UserIds) (cache : Cache) :
    (membershipChanged group user change cache).userProjections =
      cache.userProjections.evict user := by
  unfold membershipChanged
  split <;> rfl

/-- A change of one member leaves a cache that is right. -/
theorem regrouped_membershipChanged (tidy : Tidy given service) {group : GroupId} {user : UserId}
    {change : UserIds → UserIds} {members changed : Std.ExtTreeSet UserId}
    {directory : Directory} {calls lookups : Nat} (sound : directory.Sound)
    (found : service.directory.members[group]? = some members)
    (changes : change (.only members) = .only changed)
    (inserted : directory.members = service.directory.members.insert group changed)
    (others : ∀ other, user ≠ other → service.directory.SameGroups directory other) :
    Regrouped service { service with
      calls := calls
      lookups := lookups
      directory := directory
      cache := membershipChanged group user change service.cache } := by
  obtain ⟨entries, objects⟩ : (membershipChanged group user change service.cache).entries =
      service.cache.entries ∧
      (membershipChanged group user change service.cache).objectProjections =
        service.cache.objectProjections := by
    unfold membershipChanged
    split <;> exact ⟨rfl, rfl⟩
  refine ⟨rfl, rfl, rfl, entries, objects, sound,
    membersKnown_membershipChanged tidy.members found changes inserted, ?_⟩
  intro other projection held
  rw [userProjections_membershipChanged, Shelf.value?_evict] at held
  split at held
  · cases held
  · exact ⟨held, others other ‹_›⟩

/-! ### The calls -/

section Calls

variable (tidy : Tidy given service) (sound : service.directory.Sound)

include tidy sound

theorem ensures_createGroup (group : Group) :
    Ensures (createGroup group) service (fun _ => Regroups service)
      (fun _ => Regroups service) := by
  unfold createGroup
  split
  · exact .inl (.refl service)
  simp only [ensures_bind, ensures_ofDirectory, ensures_modifyCache, ensures_pure]
  refine (ensures_directoryCall _ _).mono ?_ ?_
  · rintro id _ ⟨changed, answer, rfl⟩
    obtain ⟨soundAfter, same, elsewhere⟩ := sound.createGroup answer
    refine .inr ⟨service, .refl service, rfl, rfl, rfl, rfl, rfl, soundAfter, ?_, ?_⟩
    · exact membersKnown_erase tidy.members elsewhere
    · exact fun held => ⟨held, same _⟩
  · rintro _ _ ⟨_, _, rfl⟩
    exact .inl (.of_same rfl rfl rfl rfl rfl rfl)

theorem ensures_modifyGroup (group : Group) :
    Ensures (modifyGroup group) service (fun _ => Regroups service)
      (fun _ => Regroups service) := by
  unfold modifyGroup
  split
  · exact .inl (.refl service)
  simp only [ensures_bind, ensures_ofDirectory, ensures_modifyCache]
  refine (ensures_directoryChange _ _).mono ?_ ?_
  · rintro _ _ ⟨changed, answer, rfl⟩
    obtain ⟨soundAfter, same, members⟩ := sound.modifyGroup answer
    refine .inr ⟨service, .refl service, rfl, rfl, rfl, rfl, rfl, soundAfter, ?_, ?_⟩
    · exact membersKnown_erase tidy.members fun _ _ => by rw [members]
    · exact fun held => ⟨held, same _⟩
  · rintro _ _ ⟨_, _, rfl⟩
    exact .inl (.of_same rfl rfl rfl rfl rfl rfl)

theorem ensures_deleteGroup (group : GroupId) :
    Ensures (deleteGroup group) service (fun _ => Regroups service)
      (fun _ => Regroups service) := by
  unfold deleteGroup
  split
  · exact .inl (.refl service)
  rename_i notBuiltIn
  simp only [ensures_bind, ensures_ofDirectory, ensures_modifyCache]
  refine (ensures_groupMembers group).mono ?_ fun _ _ failed => .inl failed.2
  rintro members middle ⟨rfl, asked⟩
  have coherent : service.membersFor group = service.directory.usersOfGroup group :=
    tidy.usersFor_eq (.group group)
  refine (ensures_directoryChange _ _).mono ?_ ?_
  · rintro _ _ ⟨changed, answer, rfl⟩
    rw [← asked.directory] at sound coherent
    obtain ⟨soundAfter, erased, same⟩ := sound.deleteGroup answer
    obtain ⟨entries, objects, groupMembers⟩ :=
      foldl_removeUserProjection (service.membersFor group).toList (middle.cache.removeGroup group)
    refine .inr ⟨middle, asked, rfl, rfl, rfl, entries, objects, soundAfter, ?_, ?_⟩
    · intro other members found
      rw [groupMembers] at found
      refine membersKnown_erase (tidy.quiet asked).members (fun other different => ?_) found
      rw [erased, lookup_erase, if_neg different.symm]
    · intro user projection held
      rw [value?_foldl_removeUserProjection] at held
      split at held
      · cases held
      · rename_i notListed
        refine ⟨held, same user ?_⟩
        -- Who is not listed was not a member.
        rw [coherent] at notListed
        unfold Directory.usersOfGroup at notListed
        unfold Directory.hasMember
        rw [if_neg fun builtIn => notBuiltIn (beq_iff_eq.mpr builtIn)] at notListed
        cases found : middle.directory.members[group]? with
        | none => rfl
        | some users =>
          rw [found] at notListed
          rw [Option.any_some, Bool.eq_false_iff]
          exact fun holds => notListed (Std.ExtTreeSet.mem_toList.mpr
            (Std.ExtTreeSet.contains_iff_mem.mp holds))
  · rintro _ _ ⟨_, _, rfl⟩
    exact .inl (asked.trans (.of_same rfl rfl rfl rfl rfl rfl))

theorem ensures_addGroupUser (group : GroupId) (user : UserId) :
    Ensures (addGroupUser group user) service (fun _ => Regroups service)
      (fun _ => Regroups service) := by
  unfold addGroupUser
  split
  · exact .inl (.refl service)
  simp only [ensures_bind, ensures_ofDirectory, ensures_modifyCache]
  refine (ensures_directoryChange _ _).mono ?_ ?_
  · rintro _ _ ⟨changed, answer, rfl⟩
    obtain ⟨soundAfter, ⟨members, found, inserted⟩, others⟩ := sound.addMember answer
    exact .inr ⟨service, .refl service,
      regrouped_membershipChanged tidy soundAfter found rfl inserted others⟩
  · rintro _ _ ⟨_, _, rfl⟩
    exact .inl (.of_same rfl rfl rfl rfl rfl rfl)

theorem ensures_removeGroupUser (group : GroupId) (user : UserId) :
    Ensures (removeGroupUser group user) service (fun _ => Regroups service)
      (fun _ => Regroups service) := by
  unfold removeGroupUser
  split
  · exact .inl (.refl service)
  simp only [ensures_bind, ensures_ofDirectory, ensures_modifyCache]
  refine (ensures_directoryChange _ _).mono ?_ ?_
  · rintro _ _ ⟨changed, answer, rfl⟩
    obtain ⟨soundAfter, ⟨members, found, inserted⟩, others⟩ := sound.removeMember answer
    exact .inr ⟨service, .refl service,
      regrouped_membershipChanged tidy soundAfter found rfl inserted others⟩
  · rintro _ _ ⟨_, _, rfl⟩
    exact .inl (.of_same rfl rfl rfl rfl rfl rfl)

/-- **A change of a group leaves the cache right**, whatever the outcome. -/
theorem ensures_regroup (change : GroupChange) :
    Regroups service (change.action.run.run service).2 := by
  refine Ensures.after ?_
  cases change with
  | create group => exact ensures_map.mpr (ensures_createGroup tidy sound group)
  | modify group => exact ensures_modifyGroup tidy sound group
  | delete group => exact ensures_deleteGroup tidy sound group
  | addUser group user => exact ensures_addGroupUser tidy sound group user
  | removeUser group user => exact ensures_removeGroupUser tidy sound group user

end Calls

end BookingAccess.Service
