/-
**What was granted to a group that is deleted.**

The deletion of a group leaves its grants in the store, where they stand for nobody, as there is no
such group. They stand for nobody until the number of the group is given out again: the number of a
new group is one more than the largest in use, so that of the last group comes back. Who joins the
new group is given what was granted to the old one.

* `Gives`: an entry is among those that a user is answered from;
* `Occurrence.Creates`, `Recreated`: the number of a group is given out;
* `contains_members_iff_recreated`: a deleted group has members again exactly if it was;
* `gives_after_deletion_iff`: and exactly then its grants give somebody something;
* `told_after_renumberingEvents`: a user is told of a role that was granted to a deleted group.
-/

import BookingAccess.Proofs.Replay
import BookingAccess.Proofs.Service.Founded

namespace BookingAccess

open Service OrderedMap GroupChange

variable {rule : Occurrence → Prop} {start service final : Service} {past since : List Occurrence}
  {occurrence : Occurrence} {group : GroupId} {user : UserId} {entry : Entry}

/-! ### Entries that give something -/

/-- The entry is among those that the user is answered from. -/
def Service.Gives (service : Service) (entry : Entry) (user : UserId) : Prop :=
  entry ∈ (service.shownTo user).entriesOn entry.object

namespace Founded

/-- Only an entry that applies gives something. -/
theorem applies_of_gives (founded : Founded service) (gives : service.Gives entry user) :
    service.directory.Applies user entry.identity :=
  ((founded.shownTo user).fits gives).2

/-- Whoever is given something by a group is a member of it. -/
theorem hasMember_of_gives (founded : Founded service) (other : group ≠ everyoneGroupId)
    (gives : service.Gives entry user) (granted : entry.identity = .group group) :
    service.directory.hasMember group user = true := by
  have applies := founded.applies_of_gives gives
  rw [granted] at applies
  cases applies with
  | everyone => exact absurd rfl other
  | member holds => exact holds

theorem exists_gives_iff (founded : Founded service) {object : ObjectRef} {suits : Entry → Prop} :
    (∃ entry ∈ (service.shownTo user).entriesOn object, suits entry) ↔
      ∃ entry, service.Gives entry user ∧ entry.object = object ∧ suits entry := by
  constructor
  · rintro ⟨entry, listed, suitable⟩
    obtain rfl := ((founded.shownTo user).fits listed).1
    exact ⟨entry, listed, rfl, suitable⟩
  · rintro ⟨entry, gives, rfl, suitable⟩
    exact ⟨entry, gives, suitable⟩

/-- **A user is told of a role exactly if an entry gives it.** -/
theorem hasUserRole_iff (founded : Founded service) (notRoot : user ≠ rootUserId)
    {object : ObjectRef} {role : Role} {answer : Bool}
    (answered : ((hasUserRole user object role).run.run service).1 = .ok answer) :
    answer = true ↔
      ∃ entry, service.Gives entry user ∧ entry.object = object ∧ entry.role = role := by
  have shown : (Inquiry.hasRole user object role).shown service = answer :=
    Inquiry.shown_of_answer answered
  rw [← founded.exists_gives_iff, ← (founded.shownTo user).hasRole_iff, ← shown]
  show (user == rootUserId || (service.shownTo user).hasRole object role) = true ↔ _
  rw [beq_eq_false_iff_ne.mpr notRoot, Bool.false_or]

/-- **A user is told of a permission exactly if the role of an entry gives it.** -/
theorem hasUserPermission_iff (founded : Founded service) (notRoot : user ≠ rootUserId)
    {object : ObjectRef} {permission : Permission} {answer : Bool}
    (answered : ((hasUserPermission user object permission).run.run service).1 = .ok answer) :
    answer = true ↔ ∃ entry, service.Gives entry user ∧ entry.object = object ∧
      permission ∈ service.registry.rolePermissions object.objectClass entry.role := by
  have shown : (Inquiry.hasPermission user object permission).shown service = answer :=
    Inquiry.shown_of_answer answered
  rw [← founded.exists_gives_iff, ← (founded.shownTo user).hasPermission_iff, ← shown]
  show (user == rootUserId || (service.shownTo user).hasPermission object permission) = true ↔ _
  rw [beq_eq_false_iff_ne.mpr notRoot, Bool.false_or]

end Founded

/-- Where the projection is not cached, a stored entry gives what it grants to the identities of the
user. -/
theorem gives_of_missed (numbered : service.store.Numbered) (holds : service.store.Holds entry)
    (missed : service.cache.userProjections.value? user = none)
    (goes : entry.identity ∈ service.directory.identitiesOf user) : service.Gives entry user := by
  have settled : (service.userProjectionOf user).Settled service.registry :=
    UserProjection.settled_ofEntries _
  unfold Gives UserProjection.entriesOn
  rw [shownTo_of_missed missed]
  refine mem_values_iff.mpr ⟨entry.id, settled.lookup_holding.mpr ⟨?_, rfl⟩⟩
  exact (lookup_userProjectionOf numbered).mpr ⟨holds, goes, rfl⟩

/-! ### Numbers that are given out again -/

/-- The event is a call that creates a group and answers with this number. -/
def Occurrence.Creates (occurrence : Occurrence) (group : GroupId) : Prop :=
  ∃ record, occurrence.event = .call (.regroup (.create record)) ∧
    ((createGroup record).run.run occurrence.before).1 = .ok group

/-- The number was given out, and the group that has it was not deleted after that. -/
def Recreated (group : GroupId) : List Occurrence → Prop
  | [] => False
  | occurrence :: past =>
    occurrence.Creates group ∨ Recreated group past ∧ ¬ occurrence.Makes (.delete group)

theorem creates_iff : occurrence.Creates group ↔ ∃ record, occurrence.Makes (.create record) ∧
    occurrence.before.directory.nextGroupId = group := by
  have silent (record : Group) :
      ((GroupChange.create record).action.run.run occurrence.before).1 =
        (fun _ => ()) <$> ((createGroup record).run.run occurrence.before).1 := by
    show (((fun _ => ()) <$> createGroup record : Action Unit).run.run occurrence.before).1 = _
    rw [map_eq_pure_bind]
    simp only [ExceptT.run_bind, StateT.run_bind]
    rcases (createGroup record).run.run occurrence.before with ⟨fault | id, after⟩ <;> rfl
  constructor
  · rintro ⟨record, called, answered⟩
    refine ⟨record, ⟨called, ?_⟩, ?_⟩
    · rw [silent, answered]
      rfl
    · exact ((ensures_createGroup_made record).of_answer answered).1.symm
  · rintro ⟨record, makes, rfl⟩
    refine ⟨record, makes.1, ?_⟩
    have succeeds := makes.2
    rw [silent] at succeeds
    cases answered : ((createGroup record).run.run occurrence.before).1 with
    | error fault =>
      rw [answered] at succeeds
      exact nomatch succeeds
    | ok id =>
      exact congrArg Except.ok ((ensures_createGroup_made record).of_answer answered).1

/-- Members are kept for a group once it is created, and until it is deleted. -/
theorem contains_members_of_outcome {directory changed : Directory} {change : GroupChange}
    (outcome : change.Outcome directory changed) (group : GroupId) :
    changed.members.contains group = true ↔
      (∃ record, change = .create record ∧ directory.nextGroupId = group) ∨
        directory.members.contains group = true ∧ change ≠ .delete group := by
  have replaced {id : GroupId} {members replacing : Std.ExtTreeSet UserId}
      (found : directory.members[id]? = some members) :
      (directory.members.insert id replacing).contains group = true ↔
        directory.members.contains group = true := by
    rw [Std.ExtTreeMap.contains_eq_isSome_getElem?, Std.ExtTreeMap.contains_eq_isSome_getElem?,
      lookup_insert]
    split
    · subst group
      rw [found]
      simp
    · exact Iff.rfl
  cases outcome with
  | create record _ =>
    show (directory.members.insert directory.nextGroupId _).contains group = true ↔ _
    simp [Std.ExtTreeMap.contains_insert]
  | modify record _ => simp
  | delete id _ =>
    show (directory.members.erase id).contains group = true ↔ _
    rw [Std.ExtTreeMap.contains_erase]
    by_cases same : id = group <;> simp [same]
  | addUser id user members _ found | removeUser id user members found =>
    rw [replaced found]
    simp

/-- **One event**: members are kept for a group if the event creates it, or they were kept before and
it does not delete it. -/
theorem contains_members_after_iff (occurrence : Occurrence) (group : GroupId) :
    occurrence.after.directory.members.contains group = true ↔
      occurrence.Creates group ∨
        occurrence.before.directory.members.contains group = true ∧
          ¬ occurrence.Makes (.delete group) := by
  rw [creates_iff]
  by_cases makes : ∃ change, occurrence.Makes change
  · obtain ⟨change, made⟩ := makes
    rw [contains_members_of_outcome made.outcome.2]
    refine or_congr ⟨?_, ?_⟩ (and_congr_right fun _ => not_congr ⟨?_, fun deleted => made.eq deleted⟩)
    · rintro ⟨record, rfl, numbered⟩
      exact ⟨record, made, numbered⟩
    · rintro ⟨record, created, numbered⟩
      exact ⟨record, made.eq created, numbered⟩
    · rintro rfl
      exact made
  · rw [directory_after fun change made => makes ⟨change, made⟩]
    constructor
    · exact fun member => .inr ⟨member, fun deleted => makes ⟨_, deleted⟩⟩
    · rintro (⟨record, created, -⟩ | ⟨member, -⟩)
      · exact absurd ⟨_, created⟩ makes
      · exact member

/-- **A group that is gone has members again exactly if its number was given out again.** -/
theorem contains_members_iff_recreated (gone : start.directory.members.contains group = false)
    (run : Run rule start past service) :
    service.directory.members.contains group = true ↔ Recreated group past := by
  induction run with
  | start =>
    rw [gone]
    exact ⟨fun never => (nomatch never), False.elim⟩
  | @next past service event _ _ ih =>
    refine (contains_members_after_iff ⟨service, event⟩ group).trans ?_
    rw [ih]
    rfl

/-! ### Joining a group -/

/-- While every collaborator can be reached, a known user can join any group that there is. -/
theorem makes_addUser (reached : service.outages = .none) (other : group ≠ everyoneGroupId)
    (known : service.directory.users.contains user = true)
    (kept : service.directory.members.contains group = true) :
    (⟨service, .call (.regroup (.addUser group user))⟩ : Occurrence).Makes
      (.addUser group user) := by
  have notBuiltIn : (group == everyoneGroupId) = false := beq_eq_false_iff_ne.mpr other
  have reachable (kind : DirectoryCall) : service.outages.directory service.calls kind = none := by
    rw [reached]
    rfl
  rw [Std.ExtTreeMap.contains_eq_isSome_getElem?] at kept
  obtain ⟨members, found⟩ := Option.isSome_iff_exists.mp kept
  have added : service.directory.addMember group user = .ok { service.directory with
      members := service.directory.members.insert group (members.insert user) } := by
    unfold Directory.addMember
    rw [if_pos known, found]
  have joins : Ensures (addGroupUser group user) service (fun _ _ => True) fun _ _ => False := by
    unfold addGroupUser DirectoryClient.addMember DirectoryClient.change DirectoryClient.call
    simp only [notBuiltIn, Bool.false_eq_true, if_false, ensures_bind, ensures_ofDirectory,
      ensures_get, ensures_set, reachable, ensures_modify, ensures_mk_pure, added,
      ensures_modifyCache]
    trivial
  obtain ⟨_, answered, -⟩ := joins.exists_answer
  exact ⟨rfl, answered⟩

/-- Who has joined a group is given what is stored for it. -/
theorem gives_of_addUser (numbered : service.store.Numbered)
    (joined : (GroupChange.addUser group user).Made service final)
    (holds : service.store.Holds entry) (granted : entry.identity = .group group) :
    final.Gives entry user := by
  have missed : final.cache.userProjections.value? user = none := by
    rw [joined.cache]
    show (membershipChanged group user (·.insert user) service.cache).userProjections.value? user =
      none
    rw [userProjections_membershipChanged, Shelf.value?_evict, if_pos rfl]
  refine gives_of_missed (joined.store ▸ numbered) (joined.store ▸ holds) missed ?_
  have outcome := outcome_of_applied joined.applied
  generalize final.directory = changed at outcome
  cases outcome with
  | addUser _ _ members known found =>
    refine Directory.mem_identitiesOf.mpr (.inr (.inr ⟨known, group, granted, ?_⟩))
    rw [Directory.hasMember_insert rfl, if_pos rfl]
    simp

/-- **A known user who is made a member of a group is given what is stored for it**, exactly if there
is such a group. -/
theorem Founded.gives_after_joining_iff (founded : Founded service)
    (other : group ≠ everyoneGroupId) (numbered : service.store.Numbered)
    (granted : entry.identity = .group group) (holds : service.store.Holds entry)
    (known : service.directory.users.contains user = true) (reached : service.outages = .none) :
    (Event.next service (.call (.regroup (.addUser group user)))).Gives entry user ↔
      service.directory.members.contains group = true := by
  generalize called : (⟨service, .call (.regroup (.addUser group user))⟩ : Occurrence) = joining
  have result : Event.next service (.call (.regroup (.addUser group user))) = joining.after :=
    called ▸ rfl
  have before : joining.before = service := called ▸ rfl
  rw [result]
  constructor
  · intro gives
    have foundedAfter : Founded joining.after := Founded.event joining (before ▸ founded)
    have stays := (contains_members_after_iff joining group).mp
      (Directory.contains_of_hasMember (foundedAfter.hasMember_of_gives other gives granted))
    rcases stays with ⟨record, created, -⟩ | ⟨held, -⟩
    · rw [← called] at created
      exact nomatch created
    · exact before ▸ held
  · intro held
    have makes : joining.Makes (.addUser group user) :=
      called ▸ makes_addUser reached other known held
    obtain ⟨asked, quiet, made⟩ := makes.made
    rw [before] at quiet
    have untouched := Untouched.ofQuiet quiet
    exact gives_of_addUser (untouched.numbered numbered) made (untouched.holds_iff.mpr holds) granted

/-! ### After a deletion -/

/-- **What was granted to a deleted group gives something exactly once its number has been given out
again.** After a deletion and whatever comes later, users are told of roles and permissions exactly
as the entries give them that they are answered from. An entry of the deleted group is among these
only if the number of the group has been given out again and the user is a member now; and it is
among them for a known user who is made a member then, as long as it is stored. -/
theorem gives_after_deletion_iff (fresh : start.Fresh) (grouped : start.directory.Grouped)
    (earlier : Run rule start past service) {event : Event}
    (deleted : (⟨service, event⟩ : Occurrence).Makes (.delete group))
    (later : Run rule (event.next service) since final) :
    (∀ user object role answer, user ≠ rootUserId →
      ((hasUserRole user object role).run.run final).1 = .ok answer →
        (answer = true ↔
          ∃ entry, final.Gives entry user ∧ entry.object = object ∧ entry.role = role)) ∧
    (∀ user object permission answer, user ≠ rootUserId →
      ((hasUserPermission user object permission).run.run final).1 = .ok answer →
        (answer = true ↔ ∃ entry, final.Gives entry user ∧ entry.object = object ∧
          permission ∈ final.registry.rolePermissions object.objectClass entry.role)) ∧
    (∀ user entry, final.Gives entry user → entry.identity = .group group →
      Recreated group since ∧ final.directory.hasMember group user = true) ∧
    ∀ user entry, entry.identity = .group group → final.store.Holds entry →
      final.directory.users.contains user = true → final.outages = .none →
        ((Event.next final (.call (.regroup (.addUser group user)))).Gives entry user ↔
          Recreated group since) := by
  have founded : Founded final :=
    (((Founded.ofEmpty grouped fresh.cache).run earlier).event ⟨service, event⟩).run later
  have numbered : final.store.Numbered := by
    have first : service.store.Numbered := Stays.run earlier fresh.numbered
    have second : (event.next service).store.Numbered := Stays.event ⟨service, event⟩ first
    exact Stays.run later second
  have other : group ≠ everyoneGroupId := deleted.outcome.1
  have gone : (event.next service).directory.members.contains group = false := by
    have outcome := (contains_members_of_outcome deleted.outcome.2 group).not
    refine Bool.eq_false_iff.mpr (outcome.mpr ?_)
    rintro (⟨record, never, -⟩ | ⟨-, never⟩)
    · exact nomatch never
    · exact never rfl
  have back : final.directory.members.contains group = true ↔ Recreated group since :=
    contains_members_iff_recreated gone later
  refine ⟨fun user object role answer notRoot => founded.hasUserRole_iff notRoot,
    fun user object permission answer notRoot => founded.hasUserPermission_iff notRoot,
    fun user entry gives granted => ?_, fun user entry granted holds known reached => ?_⟩
  · have member := founded.hasMember_of_gives other gives granted
    exact ⟨back.mp (Directory.contains_of_hasMember member), member⟩
  · rw [founded.gives_after_joining_iff other numbered granted holds known reached, back]

/-- A role is granted to a group. -/
def grantingEvents : List Event := [
  .call (.regroup (.create { id := "", name := "staff" })),
  .call (.manage 0 .begin),
  .call (.manage 0 (.createEntry (.group "1") .sample .reader)),
  .call (.manage 0 .commit)]

/-- The group is deleted, and another one is created. -/
def renumberingEvents : List Event := [
  .call (.regroup (.delete "1")),
  .call (.regroup (.create { id := "", name := "crew" }))]

theorem gives_after_renumberingEvents :
    (Event.next (replay [] (replay [] .sample grantingEvents).2 renumberingEvents).2
      (.call (.regroup (.addUser "1" "1")))).Gives ⟨1, .group "1", .sample, .reader⟩ "1" := by
  generalize reached : (replay [] .sample grantingEvents).2 = service
  have earlier : Run (fun _ => True) .sample (replay [] .sample grantingEvents).1 service :=
    reached ▸ .ofEvents fun _ _ => trivial
  have deleted : (⟨service, .call (.regroup (.delete "1"))⟩ : Occurrence).Makes (.delete "1") :=
    ⟨rfl, ok_of_toOption (by subst reached; decide +kernel)⟩
  generalize gone : Event.next service (.call (.regroup (.delete "1"))) = middle
  have later : Run (fun _ => True) middle
      [⟨middle, .call (.regroup (.create { id := "", name := "crew" }))⟩]
      (Event.next middle (.call (.regroup (.create { id := "", name := "crew" })))) :=
    .next _ .start trivial
  have recreated : Recreated "1"
      [⟨middle, .call (.regroup (.create { id := "", name := "crew" }))⟩] :=
    .inl ⟨_, rfl, ok_of_toOption (by subst gone reached; decide +kernel)⟩
  have final : (replay [] service renumberingEvents).2 =
      Event.next middle (.call (.regroup (.create { id := "", name := "crew" }))) := gone ▸ rfl
  rw [final]
  subst gone
  obtain ⟨-, -, -, joining⟩ := gives_after_deletion_iff Service.fresh_sample
    Service.sound_sample.grouped earlier deleted later
  exact (joining "1" ⟨1, .group "1", .sample, .reader⟩ rfl (by subst reached; decide +kernel)
    (by subst reached; decide +kernel) (by subst reached; rfl)).mpr recreated

/-- **The user is told of a role that was granted to a group before it was deleted.** Right after the
deletion nobody has the role; it comes back with a new group that takes the number. -/
theorem told_after_renumberingEvents :
    Service.sample.Fresh ∧ Service.sample.directory.Sound ∧
      (replay [] .sample grantingEvents).2.store.Holds ⟨1, .group "1", .sample, .reader⟩ ∧
      (⟨(replay [] .sample grantingEvents).2, .call (.regroup (.delete "1"))⟩ : Occurrence).Makes
        (.delete "1") ∧
      ((hasUserRole "1" .sample .reader).run.run (replay []
        (replay [] .sample grantingEvents).2 [.call (.regroup (.delete "1"))]).2).1 = .ok false ∧
      ((hasUserRole "1" .sample .reader).run.run (replay [] (replay [] .sample grantingEvents).2
        (renumberingEvents ++ [.call (.regroup (.addUser "1" "1"))])).2).1 = .ok true :=
  ⟨Service.fresh_sample, Service.sound_sample, by decide +kernel,
    ⟨rfl, ok_of_toOption (by decide +kernel)⟩, ok_of_toOption (by decide +kernel),
    ok_of_toOption (by decide +kernel)⟩

end BookingAccess
