/-
**Changes of groups.**

A change of a group is let through or not, is made in the directory or not, and is then noted in the
cache. So what a run does to the groups follows from what each change that was made does to the
directory, whatever else happens.

* `GroupChange.Allowed`, `GroupChange.applied`, `GroupChange.noted`: the three stages;
* `GroupChange.Outcome`, `outcome_of_applied`: what a change leaves in the directory;
* `ensures_groupChange`: a call that ends well has been through all three, and one that fails has
  changed nothing;
* `Occurrence.Makes`, `turn_of_event`: what an event does to groups and to cached projections.
-/

import BookingAccess.Proofs.Service.Upkeep

namespace BookingAccess

open Service OrderedMap

variable {before after service : Service} {occurrence : Occurrence} {change : GroupChange}

/-! ### The stages of a change -/

namespace GroupChange

/-- Does the service let the change go to the directory? -/
def Allowed : GroupChange → Prop
  | .create group => Group.isEveryoneName group.name = false
  | .modify group => group.id ≠ everyoneGroupId
  | .delete id | .addUser id _ | .removeUser id _ => id ≠ everyoneGroupId

/-- The directory once the change is made there, or why it is not. -/
def applied (directory : Directory) : GroupChange → Except DirectoryError Directory
  | .create group => (·.2) <$> directory.createGroup group
  | .modify group => directory.modifyGroup group
  | .delete id => directory.deleteGroup id
  | .addUser id user => directory.addMember id user
  | .removeUser id user => directory.removeMember id user

/-- What a change leaves in the directory that makes it. -/
inductive Outcome (directory : Directory) : GroupChange → Directory → Prop
  | create (group : Group) :
      (∀ (id : GroupId) (other : Group), directory.groups[id]? = some other →
        other.name ≠ group.name) →
      Outcome directory (.create group)
        (directory.addGroup { group with id := directory.nextGroupId } [])
  | modify (group : Group) : directory.groups.contains group.id = true →
      Outcome directory (.modify group)
        { directory with groups := directory.groups.insert group.id group }
  | delete (id : GroupId) : directory.groups.contains id = true →
      Outcome directory (.delete id)
        { directory with
          groups := directory.groups.erase id
          members := directory.members.erase id }
  | addUser (id : GroupId) (user : UserId) (members : Std.ExtTreeSet UserId) :
      directory.users.contains user = true → directory.members[id]? = some members →
      Outcome directory (.addUser id user)
        { directory with members := directory.members.insert id (members.insert user) }
  | removeUser (id : GroupId) (user : UserId) (members : Std.ExtTreeSet UserId) :
      directory.members[id]? = some members →
      Outcome directory (.removeUser id user)
        { directory with members := directory.members.insert id (members.erase user) }

/-- **A change that the directory makes leaves it so.** -/
theorem outcome_of_applied {directory changed : Directory}
    (applied : change.applied directory = .ok changed) : change.Outcome directory changed := by
  cases change with
  | create group =>
    change (·.2) <$> directory.createGroup group = _ at applied
    unfold Directory.createGroup at applied
    split at applied
    · cases applied
    · rename_i free
      obtain rfl := Except.ok.inj applied
      refine .create group fun id other held same => free ?_
      exact List.any_eq_true.mpr ⟨other, mem_values_iff.mpr ⟨id, held⟩, beq_iff_eq.mpr same⟩
  | modify group =>
    change directory.modifyGroup group = _ at applied
    unfold Directory.modifyGroup at applied
    split at applied
    · obtain rfl := Except.ok.inj applied
      exact .modify group ‹_›
    · cases applied
  | delete id =>
    change directory.deleteGroup id = _ at applied
    unfold Directory.deleteGroup at applied
    split at applied
    · obtain rfl := Except.ok.inj applied
      exact .delete id ‹_›
    · cases applied
  | addUser id user =>
    change directory.addMember id user = _ at applied
    unfold Directory.addMember at applied
    split at applied
    · rename_i known
      split at applied
      · rename_i members found
        obtain rfl := Except.ok.inj applied
        exact .addUser id user members known found
      · cases applied
    · cases applied
  | removeUser id user =>
    change directory.removeMember id user = _ at applied
    unfold Directory.removeMember at applied
    split at applied
    · rename_i members found
      obtain rfl := Except.ok.inj applied
      exact .removeUser id user members found
    · cases applied

/-- The cache once a change is noted that was made in the directory of this state. -/
def noted (service : Service) : GroupChange → Cache
  | .create group =>
    let id := service.directory.nextGroupId
    service.cache.putGroup { group with id := id } |>.putGroupIdOfName group.name id
  | .modify group => service.cache.putGroup group
  | .delete id =>
    (service.membersFor id).toList.foldl Cache.removeUserProjection (service.cache.removeGroup id)
  | .addUser id user => membershipChanged id user (·.insert user) service.cache
  | .removeUser id user => membershipChanged id user (·.erase user) service.cache

/-- The change was made and noted, and nothing else was done. -/
structure Made (change : GroupChange) (before after : Service) : Prop where
  allowed : change.Allowed
  applied : change.applied before.directory = .ok after.directory
  cache : after.cache = change.noted before
  registry : after.registry = before.registry
  store : after.store = before.store
  outages : after.outages = before.outages

/-- A projection of a user that is left in the cache was there before. -/
theorem Made.kept (made : change.Made before after) {user : UserId} {projection : UserProjection}
    (found : after.cache.userProjections.value? user = some projection) :
    before.cache.userProjections.value? user = some projection := by
  have evicted {id : GroupId} {removed : UserId} {change : UserIds → UserIds}
      (found : (membershipChanged id removed change before.cache).userProjections.value? user =
        some projection) : before.cache.userProjections.value? user = some projection := by
    rw [userProjections_membershipChanged, Shelf.value?_evict] at found
    split at found
    · cases found
    · exact found
  rw [made.cache] at found
  cases change with
  | create group => exact found
  | modify group => exact found
  | addUser id added => exact evicted found
  | removeUser id removed => exact evicted found
  | delete id =>
    change ((before.membersFor id).toList.foldl Cache.removeUserProjection
      (before.cache.removeGroup id)).userProjections.value? user = some projection at found
    rw [value?_foldl_removeUserProjection] at found
    split at found
    · cases found
    · exact found

end GroupChange

open GroupChange

/-! ### The calls -/

section Calls

/-- A change that the directory makes is noted, and one that it refuses is not. -/
theorem ensures_changeNoted (change : GroupChange) {kind : DirectoryCall}
    {answer : Directory → Except DirectoryError Directory} {noting : Cache → Cache}
    (asked : Quiet before service) (allowed : change.Allowed)
    (applies : answer service.directory = change.applied service.directory)
    (notes : noting service.cache = change.noted service) :
    Ensures (do
      Action.ofDirectory (DirectoryClient.change kind answer)
      modifyCache noting) service
      (fun _ after => ∃ asked, Quiet before asked ∧ change.Made asked after)
      (fun _ after => Quiet before after) := by
  simp only [ensures_bind, ensures_ofDirectory, ensures_modifyCache]
  refine (ensures_directoryChange _ _).mono ?_ ?_
  · rintro _ _ ⟨directory, answered, rfl⟩
    exact ⟨service, asked, allowed, applies.symm.trans answered, notes, rfl, rfl, rfl⟩
  · rintro _ _ ⟨_, _, rfl⟩
    exact asked.trans (.of_same rfl rfl rfl rfl rfl rfl)

/-- A group that is created has the number that the directory has next. -/
theorem ensures_createGroup_made (group : Group) :
    Ensures (createGroup group) service
      (fun id after => id = service.directory.nextGroupId ∧
        (GroupChange.create group).Made service after)
      (fun _ after => Quiet service after) := by
  unfold createGroup
  split
  · exact Quiet.refl service
  rename_i notBuiltIn
  simp only [ensures_bind, ensures_ofDirectory, ensures_modifyCache, ensures_pure]
  refine (ensures_directoryCall _ _).mono ?_ ?_
  · rintro id _ ⟨directory, answered, rfl⟩
    have numbered : id = service.directory.nextGroupId := by
      unfold Directory.createGroup at answered
      split at answered
      · cases answered
      · exact (Prod.mk.inj (Except.ok.inj answered)).1.symm
    refine ⟨numbered, Bool.eq_false_iff.mpr notBuiltIn, ?_, by rw [numbered]; rfl, rfl, rfl, rfl⟩
    show (·.2) <$> service.directory.createGroup group = _
    rw [answered]
    rfl
  · rintro _ _ ⟨_, _, rfl⟩
    exact .of_same rfl rfl rfl rfl rfl rfl

/-- **A call that ends well has made its change, and one that fails has changed nothing.** Before
the change it may have asked for the members of the group. -/
theorem ensures_groupChange (change : GroupChange) :
    Ensures change.action service
      (fun _ after => ∃ asked, Quiet service asked ∧ change.Made asked after)
      (fun _ after => Quiet service after) := by
  cases change with
  | create group =>
    refine ensures_map.mpr ((ensures_createGroup_made group).mono ?_ fun _ _ => id)
    exact fun _ _ made => ⟨service, .refl service, made.2⟩
  | modify group =>
    show Ensures (modifyGroup group) service _ _
    unfold modifyGroup
    split
    · exact Quiet.refl service
    · rename_i other
      exact ensures_changeNoted (.modify group) (.refl service)
        (fun same => other (beq_iff_eq.mpr same)) rfl rfl
  | delete id =>
    show Ensures (deleteGroup id) service _ _
    unfold deleteGroup
    split
    · exact Quiet.refl service
    · rename_i other
      refine ensures_bind.mpr ((ensures_groupMembers id).mono ?_ fun _ _ failed => failed.2)
      rintro _ middle ⟨rfl, quiet⟩
      refine ensures_changeNoted (.delete id) quiet (fun same => other (beq_iff_eq.mpr same)) rfl ?_
      rw [← quiet.membersFor_eq]
      rfl
  | addUser id user =>
    show Ensures (addGroupUser id user) service _ _
    unfold addGroupUser
    split
    · exact Quiet.refl service
    · rename_i other
      exact ensures_changeNoted (.addUser id user) (.refl service)
        (fun same => other (beq_iff_eq.mpr same)) rfl rfl
  | removeUser id user =>
    show Ensures (removeGroupUser id user) service _ _
    unfold removeGroupUser
    split
    · exact Quiet.refl service
    · rename_i other
      exact ensures_changeNoted (.removeUser id user) (.refl service)
        (fun same => other (beq_iff_eq.mpr same)) rfl rfl

end Calls

/-! ### Events -/

/-- The event is this change of a group, and it ended well. -/
def Occurrence.Makes (occurrence : Occurrence) (change : GroupChange) : Prop :=
  occurrence.event = .call (.regroup change) ∧
    (change.action.run.run occurrence.before).1 = .ok ()

/-- What an event does to the groups and to the projections of users. -/
inductive Turn (occurrence : Occurrence) : Prop
  | made (change : GroupChange) : occurrence.Makes change → Turn occurrence
  | cleared : occurrence.event = .call .clearCache → Turn occurrence
  | kept : (∀ change, ¬ occurrence.Makes change) →
      Upkeep occurrence.before occurrence.after → Turn occurrence

/-- A change that is made is made after asking at most. -/
theorem Occurrence.Makes.made (makes : occurrence.Makes change) :
    ∃ asked, Quiet occurrence.before asked ∧ change.Made asked occurrence.after := by
  have made := (ensures_groupChange change).of_answer makes.2
  unfold Occurrence.after
  rw [makes.1]
  exact made

/-- **Every event makes a change of a group, clears the cache or keeps everything up.** -/
theorem turn_of_event (occurrence : Occurrence) : Turn occurrence := by
  by_cases makes : ∃ change, occurrence.Makes change
  · obtain ⟨change, makes⟩ := makes
    exact .made change makes
  have noChange (change : GroupChange) : ¬ occurrence.Makes change := fun made => makes ⟨change, made⟩
  by_cases clears : occurrence.event = .call .clearCache
  · exact .cleared clears
  refine .kept noChange ?_
  by_cases regroups : ∃ change, occurrence.event = .call (.regroup change)
  · obtain ⟨change, called⟩ := regroups
    -- The call has failed, so it has only asked.
    have after : occurrence.after = (change.action.run.run occurrence.before).2 := by
      unfold Occurrence.after
      rw [called]
      rfl
    rw [after]
    rcases result : change.action.run.run occurrence.before with ⟨fault | value, later⟩
    · exact .ofQuiet ((ensures_groupChange change).of_error result)
    · exact absurd ⟨called, congrArg Prod.fst result⟩ (noChange change)
  · exact upkeep_of_event (fun change called => regroups ⟨change, called⟩) clears

/-- The directory changes only by the changes that are made. -/
theorem directory_after (noChange : ∀ change, ¬ occurrence.Makes change) :
    occurrence.after.directory = occurrence.before.directory := by
  cases turn_of_event occurrence with
  | made change makes => exact absurd makes (noChange change)
  | cleared called =>
    unfold Occurrence.after
    rw [called]
    rfl
  | kept _ upkeep => exact upkeep.directory

theorem Occurrence.Makes.outcome (makes : occurrence.Makes change) :
    change.Allowed ∧ change.Outcome occurrence.before.directory occurrence.after.directory := by
  obtain ⟨asked, quiet, made⟩ := makes.made
  exact ⟨made.allowed, quiet.directory ▸ outcome_of_applied made.applied⟩

/-- An event is one change at most. -/
theorem Occurrence.Makes.eq {other : GroupChange} (makes : occurrence.Makes change)
    (again : occurrence.Makes other) : change = other := by
  have called := makes.1.symm.trans again.1
  injection called with same
  injection same

end BookingAccess
