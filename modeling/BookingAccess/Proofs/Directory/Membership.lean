/-
**Whom a grant applies to.**

A grant to a user applies to this user, a grant to everyone to all users, and a grant to any other
group to its members. The directory answers the same question in two other ways: by the users that
an identity stands for, and by the identities that a user goes by.

* `contains_usersOf_iff`: the users that an identity stands for are those it applies to;
* `Sound.mem_identitiesOf_iff`: a user goes by the identities that apply, if all members are known.
-/

import BookingAccess.Directory.Basic
import BookingAccess.Proofs.OrderedMap
import BookingAccess.UserIds

namespace BookingAccess.Directory

open OrderedMap

variable {directory : Directory} {user : UserId} {identity : Identity}

/-! ### Three views of the same relation -/

def hasMember (directory : Directory) (group : GroupId) (user : UserId) : Bool :=
  directory.members[group]?.any (·.contains user)

/-- A grant to the identity applies to the user. -/
inductive Applies (directory : Directory) (user : UserId) : Identity → Prop
  | self : Applies directory user (.user user)
  | everyone : Applies directory user .everyone
  | member {group : GroupId} : directory.hasMember group user = true →
      Applies directory user (.group group)

/-- The members of a group: nobody, where the directory does not know it. -/
def usersOfGroup (directory : Directory) (group : GroupId) : UserIds :=
  if group = everyoneGroupId then .everyone
  else match directory.members[group]? with
    | some members => .only members
    | none => .empty

/-- The users that an identity stands for. -/
def usersOf (directory : Directory) : Identity → UserIds
  | .user user => .single user
  | .group group => directory.usersOfGroup group

/-- The identities that a user goes by; an unknown user has no groups. -/
def identitiesOf (directory : Directory) (user : UserId) : List Identity :=
  let groups := match directory.groupsOfUser user with
    | .ok groups => groups
    | .error _ => []
  .user user :: .everyone :: groups.map Identity.group

/-- **An identity stands for the users that it applies to.** -/
theorem contains_usersOf_iff :
    (directory.usersOf identity).contains user = true ↔ directory.Applies user identity := by
  cases identity with
  | user id =>
    show (UserIds.single id).contains user = true ↔ _
    rw [UserIds.contains_single, beq_iff_eq]
    refine ⟨fun same => same ▸ .self, fun applies => ?_⟩
    cases applies
    rfl
  | group group =>
    show (directory.usersOfGroup group).contains user = true ↔ _
    unfold usersOfGroup
    by_cases isEveryone : group = everyoneGroupId
    · subst isEveryone
      rw [if_pos rfl]
      exact ⟨fun _ => .everyone, fun _ => rfl⟩
    · have members : directory.Applies user (.group group) ↔
          directory.hasMember group user = true := by
        refine ⟨fun applies => ?_, .member⟩
        cases applies with
        | everyone => exact absurd rfl isEveryone
        | member holds => exact holds
      rw [if_neg isEveryone, members]
      unfold hasMember
      cases directory.members[group]? with
      | none => simp
      | some members => rfl

theorem mem_groupsOfUser {groups : List GroupId} (answer : directory.groupsOfUser user = .ok groups)
    (group : GroupId) : group ∈ groups ↔ directory.hasMember group user = true := by
  unfold groupsOfUser at answer
  split at answer
  · obtain rfl := Except.ok.inj answer
    unfold hasMember
    simp only [List.mem_filterMap, Prod.exists, Option.any_eq_true]
    constructor
    · rintro ⟨key, members, listed, found⟩
      split at found
      · obtain rfl := Option.some.inj found
        exact ⟨members, Std.ExtTreeMap.mem_toList_iff_getElem?_eq_some.mp listed, ‹_›⟩
      · exact nomatch found
    · rintro ⟨members, found, holds⟩
      exact ⟨group, members, Std.ExtTreeMap.mem_toList_iff_getElem?_eq_some.mpr found,
        if_pos holds⟩
  · exact nomatch answer

theorem mem_identitiesOf :
    identity ∈ directory.identitiesOf user ↔
      identity = .user user ∨ identity = .everyone ∨ directory.users.contains user = true ∧
        ∃ group, identity = .group group ∧ directory.hasMember group user = true := by
  unfold identitiesOf
  cases known : directory.users.contains user with
  | false =>
    have refused : directory.groupsOfUser user = .error (.userNotFound user) := by
      simp [groupsOfUser, known]
    rw [refused]
    simp
  | true =>
    obtain ⟨groups, answer⟩ : ∃ groups, directory.groupsOfUser user = .ok groups := by
      simp [groupsOfUser, known]
    rw [answer]
    simp only [List.mem_cons, List.mem_map, mem_groupsOfUser answer, true_and]
    grind

/-- A user goes only by identities that apply. -/
theorem applies_of_mem_identitiesOf (goes : identity ∈ directory.identitiesOf user) :
    directory.Applies user identity := by
  rcases mem_identitiesOf.mp goes with rfl | rfl | ⟨_, group, rfl, holds⟩
  · exact .self
  · exact .everyone
  · exact .member holds

/-! ### Sound directories -/

/-- Members are kept for the groups that there are, and they are known users. -/
structure Sound (directory : Directory) : Prop where
  grouped : ∀ group : GroupId,
    directory.members.contains group = true → directory.groups.contains group = true
  known : ∀ group user, directory.hasMember group user = true →
    directory.users.contains user = true

/-- **A user goes by all identities that apply.** -/
theorem Sound.mem_identitiesOf_iff (sound : directory.Sound) :
    identity ∈ directory.identitiesOf user ↔ directory.Applies user identity := by
  refine ⟨applies_of_mem_identitiesOf, fun applies => mem_identitiesOf.mpr ?_⟩
  cases applies with
  | self => exact .inl rfl
  | everyone => exact .inr (.inl rfl)
  | member holds => exact .inr (.inr ⟨sound.known _ _ holds, _, rfl, holds⟩)

end BookingAccess.Directory
