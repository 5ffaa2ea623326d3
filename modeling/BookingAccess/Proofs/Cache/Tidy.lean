/-
**A cache that fits the store and the directory.**

A cache is tidy when everything in it is what was once given out: entries under their own numbers,
projections that are settled or summed up, members as the directory has them. What may still be
wrong is that the cache refers to an entry that is gone, or that a projection misses one that is
stored.

* `Tidy`: the cache and the store keep to what was given out;
* `Refers`, `Misses`, `MissesOn`, `Resolved`: what else may hold of a cache;
* `Tidy.quiet` and its like: a quiet call leaves all of this as it is, up to what is stored.
-/

import BookingAccess.Proofs.Service.Quiet
import BookingAccess.Proofs.Store

namespace BookingAccess

open OrderedMap

/-- The projection has the entry among its own, or among those of a holding. -/
def UserProjection.Mentions (projection : UserProjection) (entry : Entry) : Prop :=
  (∃ id : EntryId, projection.entries[id]? = some entry) ∨
    ∃ (object : ObjectRef) (id : EntryId), (projection.holding object).entries[id]? = some entry

namespace Service

variable {service before after : Service} {entry : Entry} {user : UserId}

/-- A loaded projection of a user holds the stored entries that apply to the user. -/
theorem lookup_userProjectionOf (numbered : service.store.Numbered) {id : EntryId} :
    (service.userProjectionOf user).entries[id]? = some entry ↔
      service.store.Holds entry ∧ entry.identity ∈ service.directory.identitiesOf user ∧
        entry.id = id := by
  unfold userProjectionOf
  have listed : ∀ entry ∈ service.store.entriesOf (service.directory.identitiesOf user),
      entry ∈ service.store.entryList := fun _ => Store.mem_entryList_of_mem_entriesOf
  rw [UserProjection.lookup_ofEntries (numbered.agree listed), numbered.mem_entriesOf, and_assoc]

/-- A loaded projection of an object holds the stored entries on it, resolved to users. -/
theorem lookup_objectProjectionOf (numbered : service.store.Numbered) {object : ObjectRef}
    {id : EntryId} {holder : ResolvedEntry} :
    (service.objectProjectionOf object).entries[id]? = some holder ↔
      service.store.Holds holder.entry ∧ holder.entry.object = object ∧ holder.entry.id = id ∧
        holder.users = service.usersFor holder.entry.identity := by
  unfold objectProjectionOf
  have listed : ∀ entry ∈ service.store.entriesOn object, entry ∈ service.store.entryList :=
    fun _ => Store.mem_entryList_of_mem_entriesOn
  rw [ObjectProjection.lookup_ofEntries (numbered.agree listed), numbered.mem_entriesOn, and_assoc]

/-! ### Members -/

/-- The members that are remembered are those that the directory names. -/
def MembersKnown (cache : Cache) (directory : Directory) : Prop :=
  ∀ {group : GroupId} {members}, cache.groupMembers[group]? = some members →
    ∃ users, directory.members[group]? = some users ∧ members = .only users

/-- While the right members are remembered, identities stand for the users that the directory
names. -/
theorem usersFor_eq_of_known (known : MembersKnown service.cache service.directory)
    (identity : Identity) : service.usersFor identity = service.directory.usersOf identity := by
  cases identity with
  | user user => rfl
  | group group =>
    show service.membersFor group = service.directory.usersOfGroup group
    unfold membersFor Directory.usersOfGroup
    split
    · rfl
    · cases cached : service.cache.groupMembers[group]? with
      | none => rfl
      | some members =>
        obtain ⟨users, found, rfl⟩ := known cached
        rw [found]
        rfl

/-! ### Tidy caches -/

/-- The store and the cache keep entries as they were given out, under their own numbers; a user
projection keeps entries that apply to the user, an object projection entries on the object. -/
structure Tidy (given : EntryId → Option Entry) (service : Service) : Prop where
  own : ∀ {id entry}, given id = some entry → entry.id = id
  numbered : service.store.Numbered
  stored : ∀ {id entry}, service.store.get? id = some entry → given id = some entry
  members : ∀ {group : GroupId} {members}, service.cache.groupMembers[group]? = some members →
    ∃ users, service.directory.members[group]? = some users ∧ members = .only users
  kept : ∀ {id : EntryId} {entry}, service.cache.entries[id]? = some entry →
    given id = some entry
  settled : ∀ {user projection}, service.cache.userProjections.value? user = some projection →
    projection.Settled service.registry
  applies : ∀ {user projection}, service.cache.userProjections.value? user = some projection →
    ∀ {id : EntryId} {entry}, projection.entries[id]? = some entry →
      given id = some entry ∧ service.directory.Applies user entry.identity
  summed : ∀ {object projection},
    service.cache.objectProjections.value? object = some projection → projection.Summed
  located : ∀ {object projection},
    service.cache.objectProjections.value? object = some projection →
      ∀ {id : EntryId} {holder}, projection.entries[id]? = some holder →
        given id = some holder.entry ∧ holder.entry.object = object

variable {given : EntryId → Option Entry}

/-- With a tidy cache, identities stand for the users that the directory names. -/
theorem Tidy.usersFor_eq (tidy : Tidy given service) (identity : Identity) :
    service.usersFor identity = service.directory.usersOf identity :=
  usersFor_eq_of_known tidy.members identity

/-- A quiet call leaves the cache tidy. -/
theorem Tidy.quiet (tidy : Tidy given before) (quiet : Quiet before after) :
    Tidy given after where
  own := tidy.own
  numbered id entry found := by
    rw [quiet.lastId]
    exact tidy.numbered id entry (quiet.get? id ▸ found)
  stored found := tidy.stored (quiet.get? _ ▸ found)
  members {group members} cached := by
    rw [quiet.directory]
    rcases quiet.members group with same | ⟨_, users, found, loaded⟩
    · exact tidy.members (same ▸ cached)
    · rw [loaded] at cached
      exact ⟨users, found, (Option.some.inj cached).symm⟩
  kept {id entry} found := by
    rcases quiet.kept id with same | ⟨stored, listed, rfl, loaded⟩
    · exact tidy.kept (same ▸ found)
    · rw [loaded] at found
      obtain rfl := Option.some.inj found
      exact tidy.stored (tidy.numbered.mem_entryList.mp listed)
  settled {user projection} found := by
    rw [quiet.registry]
    rcases quiet.users user with same | ⟨_, loaded⟩
    · exact tidy.settled (same ▸ found)
    · rw [loaded] at found
      exact Option.some.inj found ▸ UserProjection.settled_ofEntries _
  applies {user projection} found {id entry} held := by
    rw [quiet.directory]
    rcases quiet.users user with same | ⟨_, loaded⟩
    · exact tidy.applies (same ▸ found) held
    · rw [loaded] at found
      obtain rfl := Option.some.inj found
      obtain ⟨holds, goes, rfl⟩ := (lookup_userProjectionOf tidy.numbered).mp held
      exact ⟨tidy.stored holds, Directory.applies_of_mem_identitiesOf goes⟩
  summed {object projection} found := by
    rcases quiet.objects object with same | ⟨_, loaded⟩
    · exact tidy.summed (same ▸ found)
    · rw [loaded] at found
      exact Option.some.inj found ▸ ObjectProjection.summed_ofEntries _ _
  located {object projection} found {id holder} held := by
    rcases quiet.objects object with same | ⟨_, loaded⟩
    · exact tidy.located (same ▸ found) held
    · rw [loaded] at found
      obtain rfl := Option.some.inj found
      obtain ⟨holds, here, rfl, _⟩ := (lookup_objectProjectionOf tidy.numbered).mp held
      exact ⟨tidy.stored holds, here⟩

/-! ### What a cache refers to and what it misses -/

/-- The cache refers to the entry, by itself or in a projection. -/
def Refers (service : Service) (entry : Entry) : Prop :=
  (∃ id : EntryId, service.cache.entries[id]? = some entry) ∨
    (∃ user projection, service.cache.userProjections.value? user = some projection ∧
      projection.Mentions entry) ∨
    ∃ object projection, service.cache.objectProjections.value? object = some projection ∧
      ∃ (id : EntryId) (holder : ResolvedEntry), projection.entries[id]? = some holder ∧
        holder.entry = entry

/-- The cached projection of a user, root apart, lacks the entry although the user goes by its
identity. -/
def Misses (service : Service) (entry : Entry) (user : UserId) : Prop :=
  user ≠ rootUserId ∧ entry.identity ∈ service.directory.identitiesOf user ∧
    ∃ projection, service.cache.userProjections.value? user = some projection ∧
      projection.entries[entry.id]? ≠ some entry

/-- The cached projection of its object lacks the entry. -/
def MissesOn (service : Service) (entry : Entry) : Prop :=
  ∃ projection, service.cache.objectProjections.value? entry.object = some projection ∧
    ∀ users, projection.entries[entry.id]? ≠ some ⟨entry, users⟩

/-- Object projections keep entries with the users that the directory names. -/
def Resolved (service : Service) : Prop :=
  ∀ object projection, service.cache.objectProjections.value? object = some projection →
    ∀ (id : EntryId) (holder : ResolvedEntry), projection.entries[id]? = some holder →
      holder.users = service.directory.usersOf holder.entry.identity

/-- A settled projection mentions nothing but its own entries. -/
theorem mentions_iff {registry : Registry} {projection : UserProjection}
    (settled : projection.Settled registry) :
    projection.Mentions entry ↔ ∃ id : EntryId, projection.entries[id]? = some entry := by
  refine ⟨?_, .inl⟩
  rintro (own | ⟨object, id, found⟩)
  · exact own
  · exact ⟨id, (settled.lookup_holding.mp found).1⟩

/-- A quiet call refers to nothing new but what is stored. -/
theorem Refers.quiet (tidy : Tidy given before) (quiet : Quiet before after)
    (refers : Refers after entry) : Refers before entry ∨ before.store.Holds entry := by
  rcases refers with ⟨id, found⟩ | ⟨user, projection, found, mentions⟩ |
    ⟨object, projection, found, id, holder, held, rfl⟩
  · rcases quiet.kept id with same | ⟨stored, listed, _, loaded⟩
    · exact .inl (.inl ⟨id, same ▸ found⟩)
    · rw [loaded] at found
      obtain rfl := Option.some.inj found
      exact .inr (tidy.numbered.mem_entryList.mp listed)
  · rcases quiet.users user with same | ⟨_, loaded⟩
    · exact .inl (.inr (.inl ⟨user, projection, same ▸ found, mentions⟩))
    · rw [loaded] at found
      obtain rfl := Option.some.inj found
      obtain ⟨id, held⟩ := (mentions_iff (UserProjection.settled_ofEntries _)).mp mentions
      exact .inr ((lookup_userProjectionOf tidy.numbered).mp held).1
  · rcases quiet.objects object with same | ⟨_, loaded⟩
    · exact .inl (.inr (.inr ⟨object, projection, same ▸ found, id, holder, held, rfl⟩))
    · rw [loaded] at found
      obtain rfl := Option.some.inj found
      exact .inr ((lookup_objectProjectionOf tidy.numbered).mp held).1

/-- What is loaded misses no stored entry. -/
theorem Misses.quiet (tidy : Tidy given before) (quiet : Quiet before after)
    (holds : before.store.Holds entry) (misses : Misses after entry user) :
    Misses before entry user := by
  obtain ⟨notRoot, goes, projection, found, lacks⟩ := misses
  rw [quiet.directory] at goes
  rcases quiet.users user with same | ⟨_, loaded⟩
  · exact ⟨notRoot, goes, projection, same ▸ found, lacks⟩
  · rw [loaded] at found
    obtain rfl := Option.some.inj found
    exact absurd ((lookup_userProjectionOf tidy.numbered).mpr ⟨holds, goes, rfl⟩) lacks

theorem MissesOn.quiet (tidy : Tidy given before) (quiet : Quiet before after)
    (holds : before.store.Holds entry) (misses : MissesOn after entry) :
    MissesOn before entry := by
  obtain ⟨projection, found, lacks⟩ := misses
  rcases quiet.objects entry.object with same | ⟨_, loaded⟩
  · exact ⟨projection, same ▸ found, lacks⟩
  · rw [loaded] at found
    obtain rfl := Option.some.inj found
    refine absurd ?_ (lacks (before.usersFor entry.identity))
    exact (lookup_objectProjectionOf tidy.numbered).mpr ⟨holds, rfl, rfl, rfl⟩

end Service

end BookingAccess
