/-
**What a change of the groups leaves.**

Groups come and go, and so do their members. A change keeps the directory sound, and it leaves the
membership of all users alone but those whom it names.

* `nextGroupId_new`: a new group does not take the number of another one;
* `SameGroups`: the grants that apply to a user are the same after a change;
* `Sound.createGroup`, `Sound.deleteGroup`, `Sound.addMember` and their like: the single changes.
-/

import BookingAccess.Proofs.Directory.Membership

namespace BookingAccess.Directory

open OrderedMap

variable {directory changed : Directory} {user : UserId} {identity : Identity}

/-! ### The number of a new group -/

theorem readWord64?_toString {number : Nat} (fits : number < Nat.pow 2 64) :
    Text.readWord64? (toString number) = some number := by
  have digits : (toString number).toList = Nat.toDigits 10 number := Nat.toList_repr
  have noSign : ∀ rest, Nat.toDigits 10 number ≠ '+' :: rest := by
    intro rest signed
    have : Char.isDigit '+' = true :=
      Nat.isDigit_of_mem_toDigits (by decide) (by decide) (signed ▸ List.mem_cons_self)
    exact nomatch this
  have value : Text.digitsValue (Nat.toDigits 10 number) = number := by
    unfold Text.digitsValue
    rw [← Nat.ofDigitChars_eq_foldl, Nat.ofDigitChars_ten_toDigits]
  have isNumeral : Text.natOfDigits? (Nat.toDigits 10 number) = some number := by
    have allDigits : (Nat.toDigits 10 number).all Char.isDigit = true :=
      List.all_eq_true.mpr fun _ member =>
        Nat.isDigit_of_mem_toDigits (by decide) (by decide) member
    unfold Text.natOfDigits?
    simp [allDigits, value, Nat.toDigits_ne_nil]
  unfold Text.readWord64?
  rw [digits]
  split
  · rename_i rest signed
    exact absurd signed (noSign rest)
  · show (Text.natOfDigits? (Nat.toDigits 10 number)).filter _ = _
    rw [isNumeral]
    exact if_pos (decide_eq_true fits)

theorem le_foldl_max (numbers : List Nat) (start : Nat) :
    start ≤ numbers.foldl max start ∧ ∀ number ∈ numbers, number ≤ numbers.foldl max start := by
  induction numbers generalizing start with
  | nil => simp
  | cons first rest ih =>
    obtain ⟨atLeast, others⟩ := ih (max start first)
    simp only [List.foldl_cons, List.mem_cons, forall_eq_or_imp]
    refine ⟨?_, ?_, others⟩ <;> omega

theorem foldl_max_lt {numbers : List Nat} {start bound : Nat} (startFits : start < bound)
    (fits : ∀ number ∈ numbers, number < bound) : numbers.foldl max start < bound := by
  induction numbers generalizing start with
  | nil => exact startFits
  | cons first rest ih =>
    have firstFits := fits first (.head _)
    exact ih (by omega) fun number member => fits number (.tail _ member)

/-- **The number for a new group is new**, or it is that of the built-in group: the numbers start
over after the last one. -/
theorem nextGroupId_new :
    directory.nextGroupId = everyoneGroupId ∨
      directory.groups.contains directory.nextGroupId = false := by
  unfold nextGroupId
  generalize readable : directory.groups.keys.filterMap Text.readWord64? = used
  have small : ∀ number ∈ used, number < Nat.pow 2 64 := by
    intro number member
    obtain ⟨id, _, reads⟩ := List.mem_filterMap.mp (readable ▸ member)
    unfold Text.readWord64? at reads
    simpa using (Option.filter_eq_some_iff.mp reads).2
  have largest : used.foldl max 0 < Nat.pow 2 64 := foldl_max_lt (by decide) small
  by_cases last : used.foldl max 0 + 1 = Nat.pow 2 64
  · left
    show toString ((used.foldl max 0 + 1) % Nat.pow 2 64) = everyoneGroupId
    rw [last]
    rfl
  · right
    show directory.groups.contains (toString ((used.foldl max 0 + 1) % Nat.pow 2 64)) = false
    rw [Nat.mod_eq_of_lt (by omega), Bool.eq_false_iff]
    intro taken
    have listed : used.foldl max 0 + 1 ∈ used := by
      rw [← readable, List.mem_filterMap, readable]
      refine ⟨_, ?_, readWord64?_toString (by omega)⟩
      rw [Std.ExtTreeMap.mem_keys]
      exact Std.ExtTreeMap.contains_iff_mem.mp taken
    have := (le_foldl_max used 0).2 _ listed
    omega

/-! ### Changes of groups -/

/-- The user is a member of the same groups after a change. The built-in group does not count: all
users belong to it. -/
structure SameGroups (directory changed : Directory) (user : UserId) : Prop where
  users : changed.users = directory.users
  hasMember : ∀ group, group ≠ everyoneGroupId →
    changed.hasMember group user = directory.hasMember group user

namespace SameGroups

theorem applies_iff (same : SameGroups directory changed user) :
    changed.Applies user identity ↔ directory.Applies user identity := by
  constructor <;> intro applies
  all_goals
    cases applies with
    | self => exact .self
    | everyone => exact .everyone
    | @member group holds =>
      by_cases builtIn : group = everyoneGroupId
      · exact builtIn ▸ .everyone
      · refine .member ?_
        have := same.hasMember group builtIn
        simp_all

theorem mem_identitiesOf_iff (same : SameGroups directory changed user) :
    identity ∈ changed.identitiesOf user ↔ identity ∈ directory.identitiesOf user := by
  have groups : ∀ group, group ≠ everyoneGroupId → (changed.hasMember group user = true ↔
      directory.hasMember group user = true) :=
    fun group other => by rw [same.hasMember group other]
  rw [mem_identitiesOf, mem_identitiesOf, same.users]
  have builtIn : ∀ group, group = everyoneGroupId → Identity.group group = .everyone :=
    fun _ isEveryone => isEveryone ▸ rfl
  grind

end SameGroups

/-- Membership follows from the lists of members. -/
theorem hasMember_congr {group : GroupId}
    (same : changed.members[group]? = directory.members[group]?) (user : UserId) :
    changed.hasMember group user = directory.hasMember group user := by
  unfold hasMember
  rw [same]

/-- Members are kept for a group that has some. -/
theorem contains_of_hasMember {group : GroupId} (holds : directory.hasMember group user = true) :
    directory.members.contains group = true := by
  unfold hasMember at holds
  rw [Std.ExtTreeMap.contains_eq_isSome_getElem?]
  cases found : directory.members[group]? with
  | none =>
    rw [found] at holds
    cases holds
  | some members => rfl

/-- The members of a group are replaced. -/
theorem hasMember_insert {id : GroupId} {members : Std.ExtTreeSet UserId}
    (inserted : changed.members = directory.members.insert id members) (other : GroupId)
    (user : UserId) : changed.hasMember other user =
      if id = other then members.contains user else directory.hasMember other user := by
  unfold hasMember
  rw [inserted, lookup_insert]
  split <;> rfl

/-- A group loses all its members. -/
theorem hasMember_erase {id : GroupId} (erased : changed.members = directory.members.erase id)
    (other : GroupId) (user : UserId) : changed.hasMember other user =
      if id = other then false else directory.hasMember other user := by
  unfold hasMember
  rw [erased, lookup_erase]
  split <;> rfl

section Changes

variable {group : GroupId}

/-- A new group has no members, and nobody is a member of other groups than before. -/
theorem Sound.createGroup (sound : directory.Sound) {record : Group} {id : GroupId}
    (answer : directory.createGroup record = .ok (id, changed)) :
    changed.Sound ∧ (∀ user, SameGroups directory changed user) ∧
      ∀ other, other ≠ id → changed.members[other]? = directory.members[other]? := by
  unfold Directory.createGroup at answer
  split at answer
  · exact nomatch answer
  obtain ⟨rfl, rfl⟩ := Prod.mk.inj (Except.ok.inj answer)
  generalize number : directory.nextGroupId = id
  have members (other : GroupId) :
      (directory.addGroup { record with id := id } []).members[other]? =
        if id = other then some ∅ else directory.members[other]? := by
    show (directory.members.insert id _)[other]? = _
    rw [lookup_insert, Std.ExtTreeSet.ofList_nil]
  have elsewhere : ∀ other, other ≠ id →
      (directory.addGroup { record with id := id } []).members[other]? =
        directory.members[other]? := by
    intro other different
    rw [members, if_neg different.symm]
  refine ⟨⟨?_, ?_⟩, fun user => ⟨rfl, ?_⟩, elsewhere⟩
  · intro other
    show (directory.members.insert id _).contains other = true →
      (directory.groups.insert id _).contains other = true
    simp only [Std.ExtTreeMap.contains_insert, Bool.or_eq_true]
    exact Or.imp_right (sound.grouped other)
  · intro other user holds
    unfold hasMember at holds
    rw [members] at holds
    split at holds
    · simp at holds
    · exact sound.known other user holds
  · intro other notBuiltIn
    by_cases same : other = id
    · -- The number is new, so nobody was a member under it before either.
      subst same
      have absent : directory.members[other]? = none := by
        have free : directory.groups.contains directory.nextGroupId = false :=
          nextGroupId_new.resolve_left (number ▸ notBuiltIn)
        rw [number] at free
        have := sound.grouped other
        simp_all
      unfold hasMember
      rw [members, absent]
      simp
    · exact hasMember_congr (elsewhere other same) user

theorem Sound.modifyGroup (sound : directory.Sound) {record : Group}
    (answer : directory.modifyGroup record = .ok changed) :
    changed.Sound ∧ (∀ user, SameGroups directory changed user) ∧
      changed.members = directory.members := by
  unfold Directory.modifyGroup at answer
  split at answer
  · obtain rfl := Except.ok.inj answer
    refine ⟨⟨?_, sound.known⟩, fun user => ⟨rfl, fun _ _ => rfl⟩, rfl⟩
    intro other
    show directory.members.contains other = true →
      (directory.groups.insert record.id record).contains other = true
    rw [Std.ExtTreeMap.contains_insert, Bool.or_eq_true]
    exact fun member => .inr (sound.grouped other member)
  · exact nomatch answer

theorem Sound.deleteGroup (sound : directory.Sound)
    (answer : directory.deleteGroup group = .ok changed) :
    changed.Sound ∧ changed.members = directory.members.erase group ∧
      ∀ user, directory.hasMember group user = false → SameGroups directory changed user := by
  unfold Directory.deleteGroup at answer
  split at answer
  · obtain rfl := Except.ok.inj answer
    refine ⟨⟨?_, ?_⟩, rfl, fun user noMember => ⟨rfl, fun other _ => ?_⟩⟩
    · intro other
      show (directory.members.erase group).contains other = true →
        (directory.groups.erase group).contains other = true
      simp only [Std.ExtTreeMap.contains_erase, Bool.and_eq_true]
      exact And.imp_right (sound.grouped other)
    · intro other user holds
      rw [hasMember_erase rfl] at holds
      split at holds
      · exact nomatch holds
      · exact sound.known other user holds
    · rw [hasMember_erase rfl]
      split
      · subst other
        exact noMember.symm
      · rfl
  · exact nomatch answer

/-- The members of a group are replaced by others, who are all known. -/
theorem Sound.replaceMembers (sound : directory.Sound) {members : Std.ExtTreeSet UserId}
    (found : directory.members[group]? = some members) (replaced : Std.ExtTreeSet UserId)
    (known : ∀ other, replaced.contains other = true → members.contains other = false →
      directory.users.contains other = true) :
    ({ directory with members := directory.members.insert group replaced } : Directory).Sound ∧
      ∀ other, replaced.contains other = members.contains other → SameGroups directory
        { directory with members := directory.members.insert group replaced } other := by
  have before (user : UserId) : directory.hasMember group user = members.contains user := by
    unfold Directory.hasMember
    rw [found]
    rfl
  refine ⟨⟨?_, ?_⟩, fun user same => ⟨rfl, fun other _ => ?_⟩⟩
  · intro other
    show (directory.members.insert group replaced).contains other = true → _
    rw [Std.ExtTreeMap.contains_insert, Bool.or_eq_true]
    rintro (same | member)
    · refine sound.grouped other ?_
      rw [← Std.LawfulEqOrd.eq_of_compare (beq_iff_eq.mp same),
        Std.ExtTreeMap.contains_eq_isSome_getElem?, found]
      rfl
    · exact sound.grouped other member
  · intro other user holds
    rw [hasMember_insert rfl] at holds
    split at holds
    · cases earlier : members.contains user with
      | true => exact sound.known group user (by rw [before, earlier])
      | false => exact known user holds earlier
    · exact sound.known other user holds
  · rw [hasMember_insert rfl]
    split
    · subst other
      rw [before, same]
    · rfl

theorem Sound.addMember (sound : directory.Sound)
    (answer : directory.addMember group user = .ok changed) :
    changed.Sound ∧ (∃ members, directory.members[group]? = some members ∧
        changed.members = directory.members.insert group (members.insert user)) ∧
      ∀ other, user ≠ other → SameGroups directory changed other := by
  unfold Directory.addMember at answer
  split at answer
  · rename_i knownUser
    split at answer
    · rename_i members found
      obtain rfl := Except.ok.inj answer
      obtain ⟨soundAfter, others⟩ := sound.replaceMembers found (members.insert user)
        fun other now before => by
          rw [Std.ExtTreeSet.contains_insert, before, Bool.or_false] at now
          exact Std.LawfulEqOrd.eq_of_compare (beq_iff_eq.mp now) ▸ knownUser
      refine ⟨soundAfter, ⟨members, found, rfl⟩, fun other different => others other ?_⟩
      simp [Std.ExtTreeSet.contains_insert, different]
    · exact nomatch answer
  · exact nomatch answer

theorem Sound.removeMember (sound : directory.Sound)
    (answer : directory.removeMember group user = .ok changed) :
    changed.Sound ∧ (∃ members, directory.members[group]? = some members ∧
        changed.members = directory.members.insert group (members.erase user)) ∧
      ∀ other, user ≠ other → SameGroups directory changed other := by
  unfold Directory.removeMember at answer
  split at answer
  · rename_i members found
    obtain rfl := Except.ok.inj answer
    obtain ⟨soundAfter, others⟩ := sound.replaceMembers found (members.erase user)
      fun other now before => by
        rw [Std.ExtTreeSet.contains_erase, before, Bool.and_false] at now
        exact nomatch now
    refine ⟨soundAfter, ⟨members, found, rfl⟩, fun other different => others other ?_⟩
    simp [Std.ExtTreeSet.contains_erase, different]
  · exact nomatch answer

end Changes

end BookingAccess.Directory
