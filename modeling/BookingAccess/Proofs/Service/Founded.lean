/-
**Projections rest on entries that apply.**

In every state that a run reaches, the roles and permissions in the projection of a user come from
entries whose identity stands for the user by the directory of that state. A change of a group takes
away the projections of those who lose a membership by it, and nothing else makes an entry stop
applying. Nothing is assumed of what is handed over, and calls may fail anywhere.

* `Directory.Grouped`: members are kept only for the groups that there are;
* `applies_of_outcome`: a change of a group makes entries stop applying only for users who lose a
  membership by it; `GroupChange.Made.users`: these have lost their projection;
* `Founded`, `Founded.event`, `Founded.run`: the invariant;
* `Founded.shownTo`: so everything that is shown to a user rests on entries that apply.
-/

import BookingAccess.Proofs.Answers.Inquiry
import BookingAccess.Proofs.Service.GroupChange

namespace BookingAccess

open Service OrderedMap UserProjection

variable {directory changed : Directory} {change : GroupChange} {group : GroupId} {user : UserId}
  {before after service : Service}

/-! ### Members after a change -/

/-- Members are kept for the groups that there are, and for no others. -/
def Directory.Grouped (directory : Directory) : Prop :=
  ∀ group : GroupId, directory.members.contains group = true →
    directory.groups.contains group = true

/-- The user loses a membership by the change. -/
def GroupChange.Drops (directory : Directory) (user : UserId) : GroupChange → Prop
  | .delete id => directory.hasMember id user = true
  | .removeUser _ other => other = user
  | _ => False

theorem Directory.Grouped.outcome (grouped : directory.Grouped)
    (outcome : change.Outcome directory changed) : changed.Grouped := by
  intro other
  have ofLookup {members : Std.ExtTreeSet UserId} {id : GroupId}
      (found : directory.members[id]? = some members) : directory.groups.contains id = true :=
    grouped id (by rw [Std.ExtTreeMap.contains_eq_isSome_getElem?, found]; rfl)
  have earlier := grouped other
  cases outcome with
  | create group _ =>
    show (directory.members.insert _ _).contains other = true →
      (directory.groups.insert _ _).contains other = true
    simp only [Std.ExtTreeMap.contains_insert, Bool.or_eq_true]
    exact Or.imp_right earlier
  | modify group _ =>
    show directory.members.contains other = true → (directory.groups.insert _ _).contains other = true
    rw [Std.ExtTreeMap.contains_insert, Bool.or_eq_true]
    exact fun member => .inr (earlier member)
  | delete id _ =>
    show (directory.members.erase id).contains other = true →
      (directory.groups.erase id).contains other = true
    simp only [Std.ExtTreeMap.contains_erase, Bool.and_eq_true]
    exact And.imp_right earlier
  | addUser id user members _ found | removeUser id user members found =>
    show (directory.members.insert id _).contains other = true → _
    rw [Std.ExtTreeMap.contains_insert, Bool.or_eq_true]
    rintro (same | member)
    · exact Std.LawfulEqOrd.eq_of_compare (beq_iff_eq.mp same) ▸ ofLookup found
    · exact earlier member

/-- **An identity that stood for a user still does**, unless the user loses a membership. -/
theorem applies_of_outcome (grouped : directory.Grouped)
    (outcome : change.Outcome directory changed) (stays : ¬ change.Drops directory user)
    {identity : Identity} (applies : directory.Applies user identity) :
    changed.Applies user identity := by
  cases applies with
  | self => exact .self
  | everyone => exact .everyone
  | @member other holds =>
    cases outcome with
    | create group _ =>
      by_cases same : directory.nextGroupId = other
      · -- The number is that of the built-in group, or nobody has been a member under it.
        rcases directory.nextGroupId_new with builtIn | free
        · exact same.symm.trans builtIn ▸ .everyone
        · have known := grouped other (Directory.contains_of_hasMember holds)
          rw [← same, free] at known
          cases known
      · refine .member ?_
        show (Directory.hasMember { directory with
          members := directory.members.insert directory.nextGroupId _ } other user) = true
        rwa [Directory.hasMember_insert rfl, if_neg same]
    | modify group _ => exact .member holds
    | delete id _ =>
      refine .member ?_
      have different : id ≠ other := fun same => stays (same ▸ holds)
      rw [Directory.hasMember_erase rfl, if_neg different]
      exact holds
    | addUser id added members _ found =>
      refine .member ?_
      rw [Directory.hasMember_insert rfl]
      split
      · subst other
        rw [Directory.hasMember, found] at holds
        exact Std.ExtTreeSet.contains_iff_mem.mpr
          (Std.ExtTreeSet.mem_insert.mpr (.inr (Std.ExtTreeSet.contains_iff_mem.mp holds)))
      · exact holds
    | removeUser id removed members found =>
      refine .member ?_
      rw [Directory.hasMember_insert rfl]
      split
      · subst other
        rw [Directory.hasMember, found] at holds
        show (members.erase removed).contains user = true
        have different : removed ≠ user := stays
        have held : members.contains user = true := holds
        simp [Std.ExtTreeSet.contains_erase, different, held]
      · exact holds

/-! ### The cache after a change -/

namespace GroupChange.Made

/-- The members that are remembered after a change are the right ones. -/
theorem known (made : change.Made before after)
    (known : MembersKnown before.cache before.directory) :
    MembersKnown after.cache after.directory := by
  have outcome := outcome_of_applied made.applied
  rw [made.cache]
  generalize after.directory = changed at outcome
  -- The members of the group that is created, modified or deleted are forgotten.
  have forgets {id : GroupId}
      (elsewhere : ∀ other, other ≠ id → changed.members[other]? = before.directory.members[other]?) :
      MembersKnown { before.cache with groupMembers := before.cache.groupMembers.erase id } changed :=
    membersKnown_erase known elsewhere
  cases outcome with
  | create group _ =>
    refine fun {other members} found => forgets (fun other different => ?_) found
    show (before.directory.members.insert before.directory.nextGroupId _)[other]? = _
    rw [lookup_insert, if_neg different.symm]
  | modify group _ => exact fun {other members} found => forgets (fun _ _ => rfl) found
  | delete id _ =>
    have others : ∀ other, other ≠ id →
        (before.directory.members.erase id)[other]? = before.directory.members[other]? :=
      fun other different => by rw [lookup_erase, if_neg different.symm]
    intro other members found
    unfold noted at found
    rw [(foldl_removeUserProjection _ _).2.2] at found
    exact forgets others found
  | addUser id user members _ found =>
    have kept : MembersKnown (membershipChanged id user (·.insert user) before.cache)
        { before.directory with members := before.directory.members.insert id _ } :=
      membersKnown_membershipChanged known found rfl rfl
    exact @kept
  | removeUser id user members found =>
    have kept : MembersKnown (membershipChanged id user (·.erase user) before.cache)
        { before.directory with members := before.directory.members.insert id _ } :=
      membersKnown_membershipChanged known found rfl rfl
    exact @kept

/-- A projection that is left in the cache was there before, and its user lost no membership. -/
theorem users (made : change.Made before after)
    (known : MembersKnown before.cache before.directory) {projection : UserProjection}
    (found : after.cache.userProjections.value? user = some projection) :
    before.cache.userProjections.value? user = some projection ∧
      ¬ change.Drops before.directory user := by
  refine ⟨made.kept found, ?_⟩
  have allowed := made.allowed
  rw [made.cache] at found
  cases change with
  | create group => exact not_false
  | modify group => exact not_false
  | addUser id added => exact not_false
  | removeUser id removed =>
    rintro rfl
    change (membershipChanged id removed (·.erase removed) before.cache).userProjections.value?
      removed = some projection at found
    rw [userProjections_membershipChanged, Shelf.value?_evict, if_pos rfl] at found
    cases found
  | delete id =>
    intro holds
    change before.directory.hasMember id user = true at holds
    change ((before.membersFor id).toList.foldl Cache.removeUserProjection
      (before.cache.removeGroup id)).userProjections.value? user = some projection at found
    have resolved : before.membersFor id = before.directory.usersOfGroup id :=
      usersFor_eq_of_known known (.group id)
    rw [value?_foldl_removeUserProjection, resolved, Directory.usersOfGroup, if_neg allowed] at found
    unfold Directory.hasMember at holds
    cases members : before.directory.members[id]? with
    | none =>
      rw [members] at holds
      cases holds
    | some users =>
      rw [members] at holds found
      have listed : user ∈ (UserIds.only users).toList :=
        Std.ExtTreeSet.mem_toList.mpr (Std.ExtTreeSet.contains_iff_mem.mp holds)
      rw [if_pos listed] at found
      cases found

end GroupChange.Made

/-! ### The invariant -/

/-- An entry whose identity stands for the user. -/
def Directory.Concerns (directory : Directory) (user : UserId) (entry : Entry) : Prop :=
  directory.Applies user entry.identity

/-- The right members are remembered, and what is kept for a user rests on entries that apply. -/
structure Founded (service : Service) : Prop where
  grouped : service.directory.Grouped
  known : MembersKnown service.cache service.directory
  users : ∀ {user projection}, service.cache.userProjections.value? user = some projection →
    Grounded service.registry (service.directory.Concerns user) projection

namespace Founded

theorem upkeep (founded : Founded before) (upkeep : Upkeep before after) : Founded after where
  grouped := upkeep.directory ▸ founded.grouped
  known := upkeep.known founded.known
  users {user projection} found := by
    have suits : before.Suits user = before.directory.Concerns user :=
      funext fun entry => propext (suits_iff founded.known)
    have derived := upkeep.users found
    rw [suits] at derived
    rw [upkeep.registry, upkeep.directory]
    exact derived.grounded founded.users

theorem made (founded : Founded before) (made : change.Made before after) : Founded after where
  grouped := founded.grouped.outcome (GroupChange.outcome_of_applied made.applied)
  known := made.known founded.known
  users {user projection} found := by
    obtain ⟨earlier, stays⟩ := made.users founded.known found
    rw [made.registry]
    refine (founded.users earlier).mono fun entry applies => ?_
    exact applies_of_outcome founded.grouped (GroupChange.outcome_of_applied made.applied) stays
      applies

/-- Where nothing is cached, nothing is wrong. -/
theorem ofClear {cache : Cache} (grouped : service.directory.Grouped)
    (cleared : service.cache = cache.clear) : Founded service where
  grouped := grouped
  known {_ _} found := by
    rw [cleared] at found
    cases Std.ExtTreeMap.getElem?_empty.symm.trans found
  users found := by
    rw [cleared, Cache.clear, Shelf.value?_clear] at found
    cases found

/-- **Every event keeps projections founded.** -/
theorem event (occurrence : Occurrence) (founded : Founded occurrence.before) :
    Founded occurrence.after := by
  cases turn_of_event occurrence with
  | made change makes =>
    obtain ⟨asked, quiet, made⟩ := makes.made
    exact (founded.upkeep (.ofQuiet quiet)).made made
  | cleared called =>
    unfold Occurrence.after
    rw [called]
    exact .ofClear founded.grouped rfl
  | kept _ upkeep => exact founded.upkeep upkeep

theorem run {rule : Occurrence → Prop} {start : Service} {past : List Occurrence}
    (founded : Founded start) (run : Run rule start past service) : Founded service := by
  induction run with
  | start => exact founded
  | next event _ _ ih => exact ih.event ⟨_, event⟩

theorem ofEmpty (grouped : service.directory.Grouped) (empty : service.cache = .empty) :
    Founded service := by
  have cleared : service.cache = Cache.empty.clear := empty
  exact .ofClear grouped cleared

/-- **Whatever is shown to a user rests on entries that apply**, cached or loaded. -/
theorem shownTo (founded : Founded service) (user : UserId) :
    Grounded service.registry (service.directory.Concerns user) (service.shownTo user) := by
  cases cached : service.cache.userProjections.value? user with
  | some projection =>
    rw [shownTo_of_cached cached]
    exact founded.users cached
  | none =>
    rw [shownTo_of_missed cached]
    have derived : Derived service.registry (service.directory.Concerns user) none
        (service.userProjectionOf user) := by
      refine derived_ofEntries fun entry listed => ?_
      exact (suits_iff founded.known).mp (Upkeep.suits_of_mem_entriesOf listed)
    exact derived.grounded fun never => (Option.some_ne_none _ never.symm).elim

end Founded

end BookingAccess
