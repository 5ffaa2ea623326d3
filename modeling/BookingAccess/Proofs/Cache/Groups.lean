/-
**What the cache knows of groups.**

Three parts of the cache are about groups: their records, with a note where there is none, the
numbers behind names, and the members. A change of a group replaces or forgets whatever was derived
from it, so that all three go on saying what the directory says.

* `Mirrors`: the cache says of groups what the directory says;
* `Mirrors.putGroup`, `Mirrors.deleteGroup`, `Mirrors.replaceMembers`: it does after a change;
* `mirrored_of_event`, `mirrored_of_run`: it does after any calls about groups;
* `group_answers_of_run`: so every answer about a group is that of the directory.
-/

import BookingAccess.Proofs.Replay
import BookingAccess.Proofs.Service.Reaching
import BookingAccess.Proofs.Service.Regrouping

namespace BookingAccess

open Service OrderedMap

/-! ### Groups in the directory -/

namespace Directory

/-- Every group is filed under its own number. -/
def Filed (directory : Directory) : Prop :=
  ∀ (id : GroupId) (group : Group), directory.groups[id]? = some group → group.id = id

/-- No two groups have the same name. -/
def NamedApart (directory : Directory) : Prop :=
  ∀ (first second : GroupId) (group other : Group), directory.groups[first]? = some group →
    directory.groups[second]? = some other → group.name = other.name → first = second

variable {directory : Directory} {id : GroupId} {name : String}

/-- The group that is found by a name has it. -/
theorem exists_group_of_groupIdOfName (filed : directory.Filed)
    (answer : directory.groupIdOfName name = .ok id) :
    ∃ group, directory.groups[id]? = some group ∧ group.name = name := by
  unfold groupIdOfName at answer
  split at answer
  · rename_i group found
    obtain rfl := Except.ok.inj answer
    obtain ⟨number, held⟩ := mem_values_iff.mp (List.mem_of_find?_eq_some found)
    have named := List.find?_some found
    refine ⟨group, ?_, beq_iff_eq.mp named⟩
    rw [filed number group held]
    exact held
  · exact nomatch answer

/-- While no other group has the name, a group is found by it. -/
theorem groupIdOfName_eq_ok (filed : directory.Filed) (apart : directory.NamedApart) {group : Group}
    (held : directory.groups[id]? = some group) (named : group.name = name) :
    directory.groupIdOfName name = .ok id := by
  unfold groupIdOfName
  cases found : directory.groups.values.find? (·.name == name) with
  | none =>
    have listed : group ∈ directory.groups.values := mem_values_iff.mpr ⟨id, held⟩
    have different := List.find?_eq_none.mp found group listed
    exact absurd (beq_iff_eq.mpr named) different
  | some other =>
    obtain ⟨number, otherHeld⟩ := mem_values_iff.mp (List.mem_of_find?_eq_some found)
    have otherNamed := List.find?_some found
    obtain rfl := apart id number group other held otherHeld
      (named.trans (beq_iff_eq.mp otherNamed).symm)
    exact congrArg Except.ok (filed id other otherHeld)

theorem Filed.insert (filed : directory.Filed) {changed : Directory} {group : Group}
    (inserted : changed.groups = directory.groups.insert group.id group) : changed.Filed := by
  intro number other held
  rw [inserted, lookup_insert] at held
  split at held
  · obtain rfl := Option.some.inj held
    assumption
  · exact filed number other held

end Directory

/-! ### A cache that says the same -/

/-- What the cache says of groups, the directory says too. -/
structure Mirrors (cache : Cache) (directory : Directory) : Prop where
  filed : directory.Filed
  /-- The record of a group, or that there is none. -/
  groups : ∀ {id : GroupId} {found}, cache.groups[id]? = some found → directory.groups[id]? = found
  names : ∀ {name : String} {id}, cache.groupIdOfName[name]? = some id →
    ∃ group, directory.groups[id]? = some group ∧ group.name = name
  members : MembersKnown cache directory

namespace Mirrors

variable {cache : Cache} {directory changed : Directory} {id : GroupId} {group : Group}

/-- A cache that knows no group says nothing wrong; projections may be left in it. -/
theorem ofClear (filed : directory.Filed) : Mirrors cache.clear directory where
  filed := filed
  groups found := nomatch Std.ExtTreeMap.getElem?_empty.symm.trans found
  names found := nomatch Std.ExtTreeMap.getElem?_empty.symm.trans found
  members {_ _} found := nomatch Std.ExtTreeMap.getElem?_empty.symm.trans found

/-- What was looked up is kept. -/
theorem putRecord (mirrors : Mirrors cache directory) (id : GroupId) :
    Mirrors { cache with groups := cache.groups.insert id directory.groups[id]? } directory where
  filed := mirrors.filed
  groups {other found} held := by
    change (cache.groups.insert id directory.groups[id]?)[other]? = some found at held
    rw [lookup_insert] at held
    split at held
    · subst other
      exact Option.some.inj held
    · exact mirrors.groups held
  names := mirrors.names
  members := mirrors.members

theorem putName (mirrors : Mirrors cache directory) (group : Group)
    (held : directory.groups[id]? = some group) :
    Mirrors (cache.putGroupIdOfName group.name id) directory where
  filed := mirrors.filed
  groups := mirrors.groups
  names {name number} found := by
    change (cache.groupIdOfName.insert group.name id)[name]? = some number at found
    rw [lookup_insert] at found
    split at found
    · obtain rfl := Option.some.inj found
      exact ⟨group, held, by assumption⟩
    · exact mirrors.names found
  members := mirrors.members

theorem putMembers (mirrors : Mirrors cache directory) {users : Std.ExtTreeSet UserId}
    (known : directory.members[id]? = some users) :
    Mirrors (cache.putGroupMembers id (.only users)) directory where
  filed := mirrors.filed
  groups := mirrors.groups
  names := mirrors.names
  members {other members} found := by
    change (cache.groupMembers.insert id (.only users))[other]? = some members at found
    rw [lookup_insert] at found
    split at found
    · subst other
      exact ⟨users, known, (Option.some.inj found).symm⟩
    · exact mirrors.members found

/-- Names that lead to one group are forgotten, the others are still right. -/
theorem names_of_forgetNamesOf (mirrors : Mirrors cache directory)
    (elsewhere : ∀ other, other ≠ id → changed.groups[other]? = directory.groups[other]?)
    {name : String} {number : GroupId}
    (found : (cache.forgetNamesOf id).groupIdOfName[name]? = some number) :
    ∃ group, changed.groups[number]? = some group ∧ group.name = name := by
  change (cache.groupIdOfName.filter fun _ other => other != id)[name]? = some number at found
  rw [Std.ExtTreeMap.getElem?_filter', Option.filter_eq_some_iff] at found
  obtain ⟨known, different⟩ := found
  rw [elsewhere number (bne_iff_ne.mp different)]
  exact mirrors.names known

/-- A group is new or has another record. -/
theorem putGroup (mirrors : Mirrors cache directory)
    (inserted : changed.groups = directory.groups.insert group.id group)
    (elsewhere : ∀ other, other ≠ group.id →
      changed.members[other]? = directory.members[other]?) :
    Mirrors (cache.putGroup group) changed where
  filed := mirrors.filed.insert inserted
  groups {other found} held := by
    change (cache.groups.insert group.id (some group))[other]? = some found at held
    rw [lookup_insert] at held
    rw [inserted, lookup_insert]
    split at held
    · rw [if_pos ‹_›]
      exact Option.some.inj held
    · rw [if_neg ‹_›]
      exact mirrors.groups held
  names found := mirrors.names_of_forgetNamesOf
    (fun other different => by rw [inserted, lookup_insert, if_neg different.symm]) found
  members := membersKnown_erase mirrors.members elsewhere

/-- A group is gone. -/
theorem deleteGroup (mirrors : Mirrors cache directory)
    (answer : directory.deleteGroup id = .ok changed) :
    Mirrors (cache.removeGroup id) changed := by
  unfold Directory.deleteGroup at answer
  split at answer
  · obtain rfl := Except.ok.inj answer
    refine ⟨fun number other held => ?_, fun {other found} held => ?_, fun found => ?_, ?_⟩
    · change (directory.groups.erase id)[number]? = some other at held
      rw [lookup_erase] at held
      split at held
      · exact nomatch held
      · exact mirrors.filed number other held
    · change (cache.groups.erase id)[other]? = some found at held
      rw [lookup_erase] at held
      split at held
      · exact nomatch held
      · show (directory.groups.erase id)[other]? = found
        rw [lookup_erase, if_neg ‹_›]
        exact mirrors.groups held
    · refine mirrors.names_of_forgetNamesOf (fun other different => ?_) found
      show (directory.groups.erase id)[other]? = _
      rw [lookup_erase, if_neg different.symm]
    · refine membersKnown_erase mirrors.members fun other different => ?_
      show (directory.members.erase id)[other]? = _
      rw [lookup_erase, if_neg different.symm]
  · exact nomatch answer

/-- A group has other members, and those that are remembered are changed alike. -/
theorem replaceMembers (mirrors : Mirrors cache directory) {user : UserId}
    {change : UserIds → UserIds} {users replaced : Std.ExtTreeSet UserId}
    (known : directory.members[id]? = some users) (changes : change (.only users) = .only replaced) :
    Mirrors (membershipChanged id user change cache)
      { directory with members := directory.members.insert id replaced } := by
  have others : (membershipChanged id user change cache).groups = cache.groups ∧
      (membershipChanged id user change cache).groupIdOfName = cache.groupIdOfName := by
    unfold membershipChanged
    split <;> exact ⟨rfl, rfl⟩
  refine ⟨mirrors.filed, fun found => ?_, fun found => ?_,
    membersKnown_membershipChanged mirrors.members known changes rfl⟩
  · exact mirrors.groups (others.1 ▸ found)
  · exact mirrors.names (others.2 ▸ found)

/-- Projections of users are nothing about groups. -/
theorem removeUserProjections (mirrors : Mirrors cache directory) (users : List UserId) :
    Mirrors (users.foldl Cache.removeUserProjection cache) directory := by
  induction users generalizing cache with
  | nil => exact mirrors
  | cons user users ih =>
    exact ih ⟨mirrors.filed, mirrors.groups, mirrors.names, mirrors.members⟩

end Mirrors

/-! ### Calls about groups -/

/-- The cache says of groups what the directory of the service says. -/
def Service.Mirrored (service : Service) : Prop := Mirrors service.cache service.directory

section Calls

variable {service : Service}

/-- A lookup in the directory leaves the cache and the directory as they are. -/
theorem ensures_lookup {α : Type} (kind : DirectoryCall)
    (answer : Directory → Except DirectoryError α) :
    Ensures (DirectoryClient.read kind answer) service
      (fun value after => answer service.directory = .ok value ∧ after.cache = service.cache ∧
        after.directory = service.directory)
      (fun fault after => (answer service.directory = .error fault ∨ fault.isOutage = true) ∧
        after.cache = service.cache ∧ after.directory = service.directory) := by
  refine (ensures_directoryCall _ _).mono ?_ ?_
  · rintro value _ ⟨directory, asked, rfl⟩
    cases result : answer service.directory with
    | error fault =>
      rw [result] at asked
      exact nomatch asked
    | ok found =>
      rw [result] at asked
      obtain ⟨rfl, rfl⟩ := Prod.mk.inj (Except.ok.inj asked)
      exact ⟨rfl, rfl, rfl⟩
  · rintro fault _ ⟨failed, lookups, rfl⟩
    refine ⟨failed.imp_left fun asked => ?_, rfl, rfl⟩
    cases result : answer service.directory with
    | error found =>
      rw [result] at asked
      exact congrArg Except.error (Except.error.inj asked)
    | ok found =>
      rw [result] at asked
      exact nomatch asked

/-- However the call ends, it tells what the directory says, if that can be reached, and afterwards
the cache still says the same. -/
def Tells {α : Type} (told : Except DirectoryError α) (service : Service) (action : Action α) :
    Prop :=
  Ensures action service
    (fun value after => told = .ok value ∧ after.Mirrored ∧ after.directory = service.directory)
    (fun fault after => ((∃ cause, told = .error cause ∧ fault = .ofDirectory cause) ∨
      fault.isOutage = true) ∧ after.Mirrored ∧ after.directory = service.directory)

/-- So the answer is what the directory says. -/
theorem Tells.gives {α : Type} {told : Except DirectoryError α} {action : Action α}
    (tells : Tells told service action) (reaches : Reaches AccessError.isOutage action) :
    action.Gives service (told.mapError .ofDirectory) := by
  refine .ofEnsures reaches (Ensures.mono tells ?_ ?_)
  · rintro value _ ⟨rfl, -⟩
    rfl
  · rintro fault _ ⟨⟨cause, rfl, rfl⟩ | outage, -⟩
    · exact .inl rfl
    · exact .inr outage

/-- What the directory fails with is its own fault or an outage. -/
theorem fault_of_lookup {α : Type} {told : Except DirectoryError α} {fault : DirectoryError}
    (failed : told = .error fault ∨ fault.isOutage = true) :
    (∃ cause, told = .error cause ∧ AccessError.ofDirectory fault = .ofDirectory cause) ∨
      (AccessError.ofDirectory fault).isOutage = true :=
  failed.imp (fun asked => ⟨fault, asked, rfl⟩) AccessError.isOutage_ofDirectory

theorem mirrored_congr {after : Service} (cache : after.cache = service.cache)
    (directory : after.directory = service.directory) : after.Mirrored ↔ service.Mirrored := by
  unfold Mirrored
  rw [cache, directory]

theorem tells_group (mirrored : service.Mirrored) {id : GroupId} (other : id ≠ everyoneGroupId) :
    Tells (service.directory.group id) service (Service.group id) := by
  have notBuiltIn : (id == everyoneGroupId) = false := beq_eq_false_iff_ne.mpr other
  unfold Tells Service.group rememberedGroup remembered
  simp only [notBuiltIn, Bool.false_eq_true, if_false, ensures_bind, ensures_get]
  cases cached : service.cache.groups[id]? with
  | some found =>
    have known := mirrored.groups cached
    simp only [ensures_pure]
    cases found with
    | some group =>
      refine ensures_pure.mpr ⟨?_, mirrored, rfl⟩
      unfold Directory.group
      rw [known]
    | none =>
      refine ensures_throw.mpr ⟨.inl ⟨.groupNotFound id, ?_, rfl⟩, mirrored, rfl⟩
      unfold Directory.group
      rw [known]
  | none =>
    simp only [ensures_bind, ensures_outcome]
    refine (ensures_lookup _ _).mono ?_ ?_
    · rintro group after ⟨asked, cache, directory⟩
      have known : after.directory.groups[id]? = some group := by
        rw [directory]
        unfold Directory.group at asked
        split at asked
        · rename_i held
          rw [held, Except.ok.inj asked]
        · cases asked
      have later := (mirrored_congr cache directory).mpr mirrored
      simp only [ensures_pure, ensures_modifyCache]
      refine ⟨asked, ?_, directory⟩
      have kept := Mirrors.putRecord later id
      rwa [known] at kept
    · rintro fault after ⟨failed, cache, directory⟩
      have later := (mirrored_congr cache directory).mpr mirrored
      split
      · rename_i found same
        cases same
      · rename_i missing same
        obtain rfl := Except.error.inj same
        have absent : after.directory.groups[id]? = none := by
          rw [directory]
          unfold Directory.group at failed
          split at failed
          · rcases failed with failed | failed <;> cases failed
          · assumption
        simp only [ensures_pure, ensures_modifyCache]
        refine ensures_throw.mpr ⟨.inl ⟨.groupNotFound id, ?_, rfl⟩, ?_, directory⟩
        · unfold Directory.group
          rw [← directory, absent]
        · have kept := Mirrors.putRecord later id
          rwa [absent] at kept
      · rename_i same
        obtain rfl := Except.error.inj same
        exact ensures_throw.mpr ⟨fault_of_lookup failed, later, directory⟩

/-- A name that is answered leads to a group with this name. -/
theorem ensures_groupIdByName (mirrored : service.Mirrored) {name : String}
    (other : name ≠ everyoneGroupName) :
    Ensures (groupIdByName name) service
      (fun id after => (∃ group, service.directory.groups[id]? = some group ∧ group.name = name) ∧
        after.Mirrored ∧ after.directory = service.directory)
      (fun fault after => ((∃ cause, service.directory.groupIdOfName name = .error cause ∧
        fault = .ofDirectory cause) ∨ fault.isOutage = true) ∧
        after.Mirrored ∧ after.directory = service.directory) := by
  have notBuiltIn : (name == everyoneGroupName) = false := beq_eq_false_iff_ne.mpr other
  unfold groupIdByName
  simp only [notBuiltIn, Bool.false_eq_true, if_false, ensures_bind, ensures_get]
  cases cached : service.cache.groupIdOfName[name]? with
  | some id => exact ⟨mirrored.names cached, mirrored, rfl⟩
  | none =>
    simp only [ensures_bind, ensures_ofDirectory, ensures_modifyCache, ensures_pure]
    refine (ensures_lookup _ _).mono ?_ ?_
    · rintro id after ⟨asked, cache, directory⟩
      have later := (mirrored_congr cache directory).mpr mirrored
      obtain ⟨group, held, rfl⟩ := Directory.exists_group_of_groupIdOfName mirrored.filed asked
      exact ⟨⟨group, held, rfl⟩, later.putName group (directory ▸ held), directory⟩
    · rintro fault after ⟨failed, cache, directory⟩
      exact ⟨fault_of_lookup failed, (mirrored_congr cache directory).mpr mirrored, directory⟩

theorem tells_groupIdByName (mirrored : service.Mirrored) (apart : service.directory.NamedApart)
    {name : String} (other : name ≠ everyoneGroupName) :
    Tells (service.directory.groupIdOfName name) service (groupIdByName name) := by
  refine (ensures_groupIdByName mirrored other).mono ?_ fun _ _ failed => failed
  rintro id after ⟨⟨group, held, named⟩, kept⟩
  exact ⟨Directory.groupIdOfName_eq_ok mirrored.filed apart held named, kept⟩

theorem tells_groupMembers (mirrored : service.Mirrored) {id : GroupId}
    (other : id ≠ everyoneGroupId) :
    Tells ((service.directory.groupMembers id).map .only) service (groupMembers id) := by
  have notBuiltIn : (id == everyoneGroupId) = false := beq_eq_false_iff_ne.mpr other
  unfold Tells groupMembers rememberedGroupMembers remembered
  simp only [notBuiltIn, Bool.false_eq_true, if_false, ensures_bind, ensures_get]
  cases cached : service.cache.groupMembers[id]? with
  | some members =>
    obtain ⟨users, known, rfl⟩ := mirrored.members cached
    refine ⟨?_, mirrored, rfl⟩
    unfold Directory.groupMembers
    rw [known]
    rfl
  | none =>
    simp only [ensures_bind, ensures_ofDirectory, ensures_modifyCache, ensures_pure]
    refine (ensures_lookup _ _).mono ?_ ?_
    · rintro users after ⟨asked, cache, directory⟩
      have later := (mirrored_congr cache directory).mpr mirrored
      have known : after.directory.members[id]? = some users := by
        rw [directory]
        unfold Directory.groupMembers at asked
        split at asked
        · rename_i held
          rw [held, Except.ok.inj asked]
        · cases asked
      exact ⟨congrArg (Except.map UserIds.only) asked, later.putMembers known, directory⟩
    · rintro fault after ⟨failed, cache, directory⟩
      refine ⟨fault_of_lookup (failed.imp_left fun asked => ?_),
        (mirrored_congr cache directory).mpr mirrored, directory⟩
      exact congrArg (Except.map UserIds.only) asked

/-! ### Changes of groups -/

/-- A change that fails in the directory changes nothing there. -/
theorem ensures_change {kind : DirectoryCall}
    {answer : Directory → Except DirectoryError Directory} {change : Cache → Cache}
    (mirrored : service.Mirrored)
    (changes : ∀ directory, answer service.directory = .ok directory →
      Mirrors (change service.cache) directory) :
    Ensures (do
      Action.ofDirectory (DirectoryClient.change kind answer)
      modifyCache change) service (fun _ after => after.Mirrored) (fun _ after => after.Mirrored) := by
  simp only [ensures_bind, ensures_ofDirectory, ensures_modifyCache]
  refine (ensures_directoryChange _ _).mono ?_ ?_
  · rintro _ _ ⟨directory, answered, rfl⟩
    exact changes directory answered
  · rintro _ _ ⟨_, _, rfl⟩
    exact mirrored

theorem mirrored_createGroup (mirrored : service.Mirrored) (group : Group) :
    Ensures (createGroup group) service (fun _ after => after.Mirrored)
      (fun _ after => after.Mirrored) := by
  unfold createGroup
  split
  · exact mirrored
  simp only [ensures_bind, ensures_ofDirectory, ensures_modifyCache, ensures_pure]
  refine (ensures_directoryCall _ _).mono ?_ ?_
  · rintro id _ ⟨changed, answer, rfl⟩
    unfold Directory.createGroup at answer
    split at answer
    · cases answer
    obtain ⟨rfl, rfl⟩ := Prod.mk.inj (Except.ok.inj answer)
    refine (mirrored.putGroup rfl fun other different => ?_).putName
      { group with id := service.directory.nextGroupId } ?_
    · show (service.directory.members.insert _ _)[other]? = _
      rw [lookup_insert, if_neg different.symm]
    · show (service.directory.groups.insert _ _)[_]? = _
      rw [lookup_insert, if_pos rfl]
  · rintro _ _ ⟨_, _, rfl⟩
    exact mirrored

theorem mirrored_modifyGroup (mirrored : service.Mirrored) (group : Group) :
    Ensures (modifyGroup group) service (fun _ after => after.Mirrored)
      (fun _ after => after.Mirrored) := by
  unfold modifyGroup
  split
  · exact mirrored
  refine ensures_change mirrored fun directory answer => ?_
  unfold Directory.modifyGroup at answer
  split at answer
  · obtain rfl := Except.ok.inj answer
    exact mirrored.putGroup rfl fun _ _ => rfl
  · exact nomatch answer

theorem mirrored_deleteGroup (mirrored : service.Mirrored) (id : GroupId) :
    Ensures (deleteGroup id) service (fun _ after => after.Mirrored)
      (fun _ after => after.Mirrored) := by
  unfold deleteGroup
  split
  · exact mirrored
  rename_i other
  have other : id ≠ everyoneGroupId := fun same => other (beq_iff_eq.mpr same)
  refine ensures_bind.mpr ((tells_groupMembers mirrored other).mono ?_ fun _ _ failed => failed.2.1)
  rintro members middle ⟨-, later, -⟩
  refine ensures_change later fun directory answer => ?_
  exact (later.deleteGroup answer).removeUserProjections members.toList

theorem mirrored_addGroupUser (mirrored : service.Mirrored) (id : GroupId) (user : UserId) :
    Ensures (addGroupUser id user) service (fun _ after => after.Mirrored)
      (fun _ after => after.Mirrored) := by
  unfold addGroupUser
  split
  · exact mirrored
  refine ensures_change mirrored fun directory answer => ?_
  unfold Directory.addMember at answer
  split at answer
  · split at answer
    · rename_i members known
      obtain rfl := Except.ok.inj answer
      exact mirrored.replaceMembers known rfl
    · exact nomatch answer
  · exact nomatch answer

theorem mirrored_removeGroupUser (mirrored : service.Mirrored) (id : GroupId) (user : UserId) :
    Ensures (removeGroupUser id user) service (fun _ after => after.Mirrored)
      (fun _ after => after.Mirrored) := by
  unfold removeGroupUser
  split
  · exact mirrored
  refine ensures_change mirrored fun directory answer => ?_
  unfold Directory.removeMember at answer
  split at answer
  · rename_i members known
    obtain rfl := Except.ok.inj answer
    exact mirrored.replaceMembers known rfl
  · exact nomatch answer

theorem mirrored_groupMembers (mirrored : service.Mirrored) (id : GroupId) :
    Ensures (groupMembers id) service (fun _ after => after.Mirrored)
      (fun _ after => after.Mirrored) := by
  by_cases builtIn : id = everyoneGroupId
  · unfold groupMembers
    rw [if_pos (beq_iff_eq.mpr builtIn)]
    exact mirrored
  · exact (tells_groupMembers mirrored builtIn).mono (fun _ _ told => told.2.1)
      fun _ _ failed => failed.2.1

end Calls

/-! ### Runs -/

/-- Is the question one about groups alone? -/
def Question.isAboutGroups : Question → Bool
  | .group _ | .groupIdByName _ | .groupMembers _ | .usersOf _ | .listGroups .. => true
  | _ => false

/-- The call asks about groups, changes them or clears the cache; or from now on other calls of
collaborators fail. -/
def Event.isAboutGroups : Event → Bool
  | .call (.ask question) => question.isAboutGroups
  | .call (.regroup _) | .call .clearCache | .outages _ => true
  | _ => false

variable {start service : Service} {past : List Occurrence}

theorem mirrored_of_question (mirrored : service.Mirrored) {question : Question}
    (about : question.isAboutGroups = true) :
    (question.action.run.run service).2.Mirrored := by
  refine Ensures.after ?_
  cases question with
  | group id =>
    refine ensures_map.mpr ?_
    by_cases builtIn : id = everyoneGroupId
    · unfold Service.group
      rw [if_pos (beq_iff_eq.mpr builtIn)]
      exact mirrored
    · exact (tells_group mirrored builtIn).mono (fun _ _ told => told.2.1)
        fun _ _ failed => failed.2.1
  | groupIdByName name =>
    refine ensures_map.mpr ?_
    by_cases builtIn : name = everyoneGroupName
    · unfold groupIdByName
      rw [if_pos (beq_iff_eq.mpr builtIn)]
      exact mirrored
    · exact (ensures_groupIdByName mirrored builtIn).mono (fun _ _ told => told.2.1)
        fun _ _ failed => failed.2.1
  | groupMembers id => exact ensures_map.mpr (mirrored_groupMembers mirrored id)
  | usersOf identity =>
    refine ensures_map.mpr ?_
    cases identity with
    | user user => exact mirrored
    | group id => exact mirrored_groupMembers mirrored id
  | listGroups ids kinds =>
    refine ensures_map.mpr ?_
    unfold listGroups
    simp only [ensures_bind, ensures_ofDirectory, ensures_pure]
    refine (ensures_lookup _ _).mono ?_ ?_
    · rintro _ _ ⟨-, cache, directory⟩
      exact (mirrored_congr cache directory).mpr mirrored
    · rintro _ _ ⟨-, cache, directory⟩
      exact (mirrored_congr cache directory).mpr mirrored
  | _ => exact absurd about Bool.false_ne_true

/-- **A call about groups leaves the cache in agreement with the directory**, also when it fails. -/
theorem mirrored_of_event {event : Event} (mirrored : service.Mirrored)
    (about : event.isAboutGroups = true) : (event.next service).Mirrored := by
  cases event with
  | outages failing => exact mirrored
  | graph objects => exact nomatch about
  | call made =>
    cases made with
    | ask question => exact mirrored_of_question mirrored about
    | clearCache => exact .ofClear mirrored.filed
    | manage manager task => exact nomatch about
    | regroup change =>
      refine Ensures.after ?_
      cases change with
      | create group => exact ensures_map.mpr (mirrored_createGroup mirrored group)
      | modify group => exact mirrored_modifyGroup mirrored group
      | delete id => exact mirrored_deleteGroup mirrored id
      | addUser id user => exact mirrored_addGroupUser mirrored id user
      | removeUser id user => exact mirrored_removeGroupUser mirrored id user

theorem mirrored_of_run (mirrored : start.Mirrored)
    (run : Run (·.event.isAboutGroups = true) start past service) : service.Mirrored := by
  induction run with
  | start => exact mirrored
  | next event _ about ih => exact mirrored_of_event ih about

/-- **Every answer about a group is what the directory says at that moment**, after any calls about
groups: a record or that there is none, the number behind a name, the members. Nothing stale is
left of a group that was renamed, deleted, created or changed in its members. -/
theorem group_answers_of_run (filed : start.directory.Filed) (empty : start.cache = .empty)
    (run : Run (·.event.isAboutGroups = true) start past service)
    (apart : service.directory.NamedApart) :
    (∀ id, id ≠ everyoneGroupId →
      (group id).Gives service ((service.directory.group id).mapError .ofDirectory)) ∧
    (∀ name, name ≠ everyoneGroupName → (groupIdByName name).Gives service
      ((service.directory.groupIdOfName name).mapError .ofDirectory)) ∧
    ∀ id, id ≠ everyoneGroupId → (groupMembers id).Gives service
      (((service.directory.groupMembers id).map .only).mapError .ofDirectory) := by
  have begins : start.Mirrored := by
    unfold Mirrored
    rw [empty]
    have cleared : Mirrors Cache.empty.clear start.directory := .ofClear filed
    exact cleared
  have mirrored := mirrored_of_run begins run
  exact ⟨fun id other => (tells_group mirrored other).gives (reaches_group id),
    fun name other => (tells_groupIdByName mirrored apart other).gives (reaches_groupIdByName name),
    fun id other => (tells_groupMembers mirrored other).gives (reaches_groupMembers id)⟩

/-- A group is asked for before there is one, created, renamed while its old name and its members
are remembered, and joined; a second one is created and deleted after somebody asked for it. The
last renaming does not reach the directory, which can be reached again in the end. -/
def renamingEvents : List Event := [
  .call (.ask (.group "1")),
  .call (.regroup (.create { id := "", name := "staff" })),
  .call (.ask (.groupIdByName "staff")),
  .call (.ask (.groupMembers "1")),
  .call (.regroup (.modify { id := "1", name := "crew" })),
  .call (.regroup (.addUser "1" "1")),
  .call (.regroup (.create { id := "", name := "guests" })),
  .call (.ask (.groupIdByName "guests")),
  .call (.regroup (.delete "2")),
  .outages { directory := fun _ kind => if kind = .modifyGroup then some "unreachable" else none },
  .call (.regroup (.modify { id := "1", name := "guests" })),
  .outages .none]

/-- The sample service after these calls. -/
def Service.renamed : Service := (replay [] .sample renamingEvents).2

theorem groups_after_renamingEvents :
    ((group "1").run.run .renamed).1 = .ok { id := "1", name := "crew" } ∧
      ((group "2").run.run .renamed).1 = .error (.groupNotFound "2") ∧
      ((groupIdByName "crew").run.run .renamed).1 = .ok "1" ∧
      ((groupIdByName "staff").run.run .renamed).1 = .error (.groupNotFound "staff") ∧
      ((groupMembers "1").run.run .renamed).1 = .ok (.single "1") := by
  have run : Run (·.event.isAboutGroups = true) .sample (replay [] .sample renamingEvents).1
      .renamed := .ofEvents (by decide +kernel)
  have filed : Service.sample.directory.Filed :=
    fun _ _ held => nomatch Std.ExtTreeMap.getElem?_empty.symm.trans held
  have listed : Service.renamed.directory.groups.keys = ["1"] := by decide +kernel
  have isFirst {id : GroupId} {group : Group}
      (held : Service.renamed.directory.groups[id]? = some group) : id = "1" := by
    have known : id ∈ Service.renamed.directory.groups.keys := by
      rw [Std.ExtTreeMap.mem_keys, Std.ExtTreeMap.mem_iff_isSome_getElem?, held]
      rfl
    rw [listed] at known
    exact List.mem_singleton.mp known
  have apart : Service.renamed.directory.NamedApart := fun _ _ _ _ held otherHeld _ =>
    (isFirst held).trans (isFirst otherHeld).symm
  obtain ⟨records, names, members⟩ := group_answers_of_run filed rfl run apart
  have reached : Service.renamed.outages = .none := rfl
  have renamed : Service.renamed.directory.group "1" = .ok { id := "1", name := "crew" } :=
    ok_of_toOption (by decide +kernel)
  have deleted : Service.renamed.directory.group "2" = .error (.groupNotFound "2") :=
    error_of_fault (by decide +kernel)
  have named : Service.renamed.directory.groupIdOfName "crew" = .ok "1" :=
    ok_of_toOption (by decide +kernel)
  have forgotten : Service.renamed.directory.groupIdOfName "staff" =
      .error (.groupNotFound "staff") := error_of_fault (by decide +kernel)
  have joined : (Service.renamed.directory.groupMembers "1").map UserIds.only =
      .ok (.single "1") := ok_of_toOption (by decide +kernel)
  refine ⟨?_, ?_, ?_, ?_, ?_⟩
  · rw [(records "1" (by decide)).answer reached, renamed]
    rfl
  · rw [(records "2" (by decide)).answer reached, deleted]
    rfl
  · rw [(names "crew" (by decide)).answer reached, named]
    rfl
  · rw [(names "staff" (by decide)).answer reached, forgotten]
    rfl
  · rw [(members "1" (by decide)).answer reached, joined]
    rfl

end BookingAccess
