/-
**Working entries into the cache and out of it.**

While a transaction is committed only the cache changes. It comes to refer to what is stored or told
and to nothing else, and it comes to miss nothing but what is dropped.

* `Reworked`: the relation between the states before and after; every quiet call keeps it;
* `UserReworked`, `ObjectReworked`: what may become of a projection; `reworks_users`,
  `reworks_object`: then the cache is reworked;
* `ensures_applyAddition`, `ensures_applyRemoval`: one entry.
-/

import BookingAccess.Proofs.Cache.Listed
import BookingAccess.Proofs.Service.Loading

namespace BookingAccess

open OrderedMap

/-- Changing all projections changes each. -/
theorem Shelf.value?_updateAll {κ α : Type} [Ord κ] [Std.TransOrd κ] [Std.LawfulEqOrd κ]
    (shelf : Shelf κ α) (change : α → α) (key : κ) :
    (shelf.updateAll change).value? key = (shelf.value? key).map change := by
  unfold value? get? updateAll
  rw [Std.ExtTreeMap.getElem?_map]
  cases shelf.current[key]? <;> rfl

namespace Service

variable {given : EntryId → Option Entry} {told : Entry → Prop} {dropped : EntryId → Prop}
  {before middle after service : Service} {entry : Entry}

/-- Only the cache has changed. It is tidy, refers to nothing new but what is stored or told, and
lacks nothing new but what is dropped. -/
structure Reworked (given : EntryId → Option Entry) (told : Entry → Prop)
    (dropped : EntryId → Prop) (before after : Service) : Prop where
  registry : after.registry = before.registry
  entries : after.store.entries = before.store.entries
  lastId : after.store.lastId = before.store.lastId
  directory : after.directory = before.directory
  transactions : after.transactions = before.transactions
  tidy : Tidy given after
  refers : ∀ {entry}, Refers after entry →
    Refers before entry ∨ before.store.Holds entry ∨ told entry
  misses : ∀ {entry}, before.store.Holds entry → ¬ dropped entry.id → ∀ {user},
    Misses after entry user → Misses before entry user
  missesOn : ∀ {entry}, before.store.Holds entry → ¬ dropped entry.id →
    MissesOn after entry → MissesOn before entry
  cached : ∀ {id : EntryId}, ¬ dropped id → before.cache.entries[id]?.isSome = true →
    after.cache.entries[id]?.isSome = true
  listed : Relisted dropped before after

/-- From a tidy cache, only the cache changes, and as it should. -/
def Reworks (given : EntryId → Option Entry) (told : Entry → Prop) (dropped : EntryId → Prop)
    (before after : Service) : Prop :=
  Tidy given before → Reworked given told dropped before after

theorem Reworked.holds_iff (reworked : Reworked given told dropped before after) :
    after.store.Holds entry ↔ before.store.Holds entry :=
  Store.holds_congr reworked.entries

/-- Everything listed stays up to date. -/
theorem Reworked.resolved (reworked : Reworked given told dropped before after) :
    Resolved before → Resolved after :=
  reworked.listed.resolved reworked.directory

theorem Reworked.trans (first : Reworked given told dropped before middle)
    (second : Reworked given told dropped middle after) :
    Reworked given told dropped before after where
  registry := second.registry.trans first.registry
  entries := second.entries.trans first.entries
  lastId := second.lastId.trans first.lastId
  directory := second.directory.trans first.directory
  transactions := second.transactions.trans first.transactions
  tidy := second.tidy
  refers refers := by
    rcases second.refers refers with earlier | stored | isTold
    · exact first.refers earlier
    · exact .inr (.inl (first.holds_iff.mp stored))
    · exact .inr (.inr isTold)
  misses holds stays _ lacks :=
    first.misses holds stays (second.misses (first.holds_iff.mpr holds) stays lacks)
  missesOn holds stays lacks :=
    first.missesOn holds stays (second.missesOn (first.holds_iff.mpr holds) stays lacks)
  cached stays found := second.cached stays (first.cached stays found)
  listed := first.listed.trans second.listed first.directory

theorem Tidy.reworked_of_quiet (tidy : Tidy given before) (quiet : Quiet before after) :
    Reworked given told dropped before after where
  registry := quiet.registry
  entries := quiet.entries
  lastId := quiet.lastId
  directory := quiet.directory
  transactions := quiet.transactions
  tidy := tidy.quiet quiet
  refers refers := (refers.quiet tidy quiet).imp_right .inl
  misses holds _ _ lacks := lacks.quiet tidy quiet holds
  missesOn holds _ lacks := lacks.quiet tidy quiet holds
  cached _ := quiet.cached
  listed := .ofQuiet tidy quiet

/-! ### Changes of remembered entries -/

/-- The entry is remembered. -/
theorem reworks_putEntry (isTold : told entry) (isGiven : given entry.id = some entry) :
    Reworks given told dropped service
      { service with cache := service.cache.putEntry entry } := by
  intro tidy
  have lookup (id : EntryId) : (service.cache.putEntry entry).entries[id]? =
      if entry.id = id then some entry else service.cache.entries[id]? :=
    lookup_insert _ _ _ _
  refine ⟨rfl, rfl, rfl, rfl, rfl, { tidy with kept := fun {id other} found => ?_ },
    fun {other} refers => ?_, fun _ _ _ => id, fun _ _ => id, fun {id} _ found => ?_,
    .ofObjects rfl⟩
  · have found : (service.cache.putEntry entry).entries[id]? = some other := found
    rw [lookup] at found
    split at found
    · rename_i same
      rw [← same, isGiven]
      exact found
    · exact tidy.kept found
  · rcases refers with ⟨id, found⟩ | elsewhere
    · have found : (service.cache.putEntry entry).entries[id]? = some other := found
      rw [lookup] at found
      split at found
      · obtain rfl := Option.some.inj found
        exact .inr (.inr isTold)
      · exact .inl (.inl ⟨id, found⟩)
    · exact .inl (.inr elsewhere)
  · show (service.cache.putEntry entry).entries[id]?.isSome = true
    rw [lookup]
    split
    · rfl
    · exact found

/-- The entry is no longer remembered. -/
theorem reworks_removeEntry {id : EntryId} (isDropped : dropped id) :
    Reworks given told dropped service
      { service with cache := service.cache.removeEntry id } := by
  intro tidy
  have lookup (other : EntryId) : (service.cache.removeEntry id).entries[other]? =
      if id = other then none else service.cache.entries[other]? :=
    lookup_erase _ _ _
  refine ⟨rfl, rfl, rfl, rfl, rfl, { tidy with kept := fun {other kept} found => ?_ },
    fun {kept} refers => ?_, fun _ _ _ lacks => lacks, fun _ _ lacks => lacks,
    fun {other} stays found => ?_, .ofObjects rfl⟩
  · have found : (service.cache.removeEntry id).entries[other]? = some kept := found
    rw [lookup] at found
    split at found
    · exact nomatch found
    · exact tidy.kept found
  · rcases refers with ⟨other, found⟩ | elsewhere
    · have found : (service.cache.removeEntry id).entries[other]? = some kept := found
      rw [lookup] at found
      split at found
      · exact nomatch found
      · exact .inl (.inl ⟨other, found⟩)
    · exact .inl (.inr elsewhere)
  · show (service.cache.removeEntry id).entries[other]?.isSome = true
    have different : id ≠ other := fun same => stays (same ▸ isDropped)
    rw [lookup, if_neg different]
    exact found

/-! ### Changes of user projections -/

/-- What has become of the projection of a user: it is settled, it has gained nothing but what is
told and applies to the user, and it has lost nothing but what is dropped. -/
structure UserReworked (given : EntryId → Option Entry) (told : Entry → Prop)
    (dropped : EntryId → Prop) (service : Service) (user : UserId)
    (earlier later : UserProjection) : Prop where
  settled : later.Settled service.registry
  gains : ∀ {id : EntryId} {entry}, later.entries[id]? = some entry →
    earlier.entries[id]? = some entry ∨
      told entry ∧ given id = some entry ∧ service.directory.Applies user entry.identity
  keeps : ∀ {id : EntryId} {entry}, ¬ dropped id → earlier.entries[id]? = some entry →
    later.entries[id]? = some entry

namespace UserReworked

variable {user : UserId} {projection : UserProjection}

theorem refl (settled : projection.Settled service.registry) :
    UserReworked given told dropped service user projection projection :=
  ⟨settled, .inl, fun _ => id⟩

/-- A projection may gain what applies to its user. -/
theorem added (settled : projection.Settled service.registry) (isTold : told entry)
    (isGiven : given entry.id = some entry)
    (applies : service.directory.Applies user entry.identity) :
    UserReworked given told dropped service user projection
      (projection.add service.registry entry).2 := by
  refine ⟨settled.add entry, fun {id kept} held => ?_, fun {id kept} _ held => ?_⟩
  · rw [UserProjection.lookup_add] at held
    split at held
    · rename_i same
      subst same
      cases earlier : projection.entries[entry.id]? with
      | none =>
        rw [earlier] at held
        obtain rfl : entry = kept := Option.some.inj held
        exact .inr ⟨isTold, isGiven, applies⟩
      | some other =>
        rw [earlier] at held
        exact .inl held
    · exact .inl held
  · rw [UserProjection.lookup_add, held]
    simp

/-- A projection may lose what is dropped. -/
theorem removed (settled : projection.Settled service.registry)
    (recorded : ∀ {id : EntryId} {kept}, projection.entries[id]? = some kept →
      given id = some kept)
    (isDropped : dropped entry.id) (isGiven : given entry.id = some entry) :
    UserReworked given told dropped service user projection
      (projection.remove service.registry entry).2 := by
  refine ⟨settled.remove fun kept held => ?_, fun {id kept} held => ?_,
    fun {id kept} stays held => ?_⟩
  · have same : kept = entry := Option.some.inj ((recorded held).symm.trans isGiven)
    rw [same]
  · rw [UserProjection.lookup_remove] at held
    split at held
    · exact nomatch held
    · exact .inl held
  · have different : entry.id ≠ id := fun same => stays (same ▸ isDropped)
    rw [UserProjection.lookup_remove, if_neg different]
    exact held

end UserReworked

/-- **The cache may be reworked one user after another.** -/
theorem reworks_users {shelf : Shelf UserId UserProjection}
    (each : Tidy given service → ∀ user projection, shelf.value? user = some projection →
      ∃ earlier, service.cache.userProjections.value? user = some earlier ∧
        UserReworked given told dropped service user earlier projection) :
    Reworks given told dropped service
      { service with cache := { service.cache with userProjections := shelf } } := by
  intro tidy
  refine ⟨rfl, rfl, rfl, rfl, rfl, { tidy with
    settled := fun {user projection} found => ?_,
    applies := fun {user projection} found {id kept} held => ?_ },
    fun {kept} refers => ?_, fun {kept} _ stays {user} lacks => ?_, fun _ _ => id,
    fun _ => id, .ofObjects rfl⟩
  · obtain ⟨_, _, reworked⟩ := each tidy user projection found
    exact reworked.settled
  · obtain ⟨earlier, was, reworked⟩ := each tidy user projection found
    rcases reworked.gains held with before | ⟨_, isGiven, applies⟩
    · exact tidy.applies was before
    · exact ⟨isGiven, applies⟩
  · rcases refers with byId | ⟨user, projection, found, mentions⟩ | onObject
    · exact .inl (.inl byId)
    · obtain ⟨earlier, was, reworked⟩ := each tidy user projection found
      obtain ⟨id, held⟩ := (mentions_iff reworked.settled).mp mentions
      rcases reworked.gains held with before | ⟨isTold, _⟩
      · exact .inl (.inr (.inl ⟨user, earlier, was, .inl ⟨id, before⟩⟩))
      · exact .inr (.inr isTold)
    · exact .inl (.inr (.inr onObject))
  · obtain ⟨notRoot, goes, projection, found, lacks⟩ := lacks
    obtain ⟨earlier, was, reworked⟩ := each tidy user projection found
    exact ⟨notRoot, goes, earlier, was, mt (reworked.keeps stays) lacks⟩

/-- Projections of users to whom the entry applies gain it. -/
theorem reworks_addToUsers (isTold : told entry) (isGiven : given entry.id = some entry)
    {shelf : Shelf UserId UserProjection}
    (each : ∀ user, shelf.value? user = service.cache.userProjections.value? user ∨
      service.directory.Applies user entry.identity ∧
        shelf.value? user = (service.cache.userProjections.value? user).map fun projection =>
          (projection.add service.registry entry).2) :
    Reworks given told dropped service
      { service with cache := { service.cache with userProjections := shelf } } := by
  refine reworks_users fun tidy user projection found => ?_
  rcases each user with same | ⟨applies, changed⟩
  · rw [same] at found
    exact ⟨projection, found, .refl (tidy.settled found)⟩
  · rw [changed] at found
    obtain ⟨earlier, was, rfl⟩ := Option.map_eq_some_iff.mp found
    exact ⟨earlier, was, .added (tidy.settled was) isTold isGiven applies⟩

/-- Projections of users lose the entry. -/
theorem reworks_removeFromUsers (isDropped : dropped entry.id)
    (isGiven : given entry.id = some entry) {shelf : Shelf UserId UserProjection}
    (each : ∀ user, shelf.value? user = service.cache.userProjections.value? user ∨
      shelf.value? user = (service.cache.userProjections.value? user).map fun projection =>
        (projection.remove service.registry entry).2) :
    Reworks given told dropped service
      { service with cache := { service.cache with userProjections := shelf } } := by
  refine reworks_users fun tidy user projection found => ?_
  rcases each user with same | changed
  · rw [same] at found
    exact ⟨projection, found, .refl (tidy.settled found)⟩
  · rw [changed] at found
    obtain ⟨earlier, was, rfl⟩ := Option.map_eq_some_iff.mp found
    exact ⟨earlier, was, .removed (tidy.settled was) (fun held => (tidy.applies was held).1)
      isDropped isGiven⟩

/-! ### Changes of object projections -/

/-- What has become of the projection of an object: it is summed up, it has gained nothing but what
is told, with the users that the directory names, and it has lost nothing but what is dropped. -/
structure ObjectReworked (given : EntryId → Option Entry) (told : Entry → Prop)
    (dropped : EntryId → Prop) (service : Service) (object : ObjectRef)
    (earlier later : ObjectProjection) : Prop where
  summed : later.Summed
  gains : ∀ {id : EntryId} {holder}, later.entries[id]? = some holder →
    earlier.entries[id]? = some holder ∨
      told holder.entry ∧ given id = some holder.entry ∧ holder.entry.object = object ∧
        holder.users = service.directory.usersOf holder.entry.identity
  keeps : ∀ {id : EntryId} {holder}, ¬ dropped id → earlier.entries[id]? = some holder →
    later.entries[id]? = some holder

namespace ObjectReworked

variable {object : ObjectRef} {projection : ObjectProjection}

theorem refl (summed : projection.Summed) :
    ObjectReworked given told dropped service object projection projection :=
  ⟨summed, .inl, fun _ => id⟩

theorem added (summed : projection.Summed) (isTold : told entry)
    (isGiven : given entry.id = some entry) (here : entry.object = object) :
    ObjectReworked given told dropped service object projection
      (projection.add entry (service.directory.usersOf entry.identity)).2 := by
  refine ⟨summed.add entry _, fun {id holder} held => ?_, fun {id holder} _ held => ?_⟩
  · rw [ObjectProjection.lookup_add] at held
    split at held
    · rename_i same
      subst same
      cases earlier : projection.entries[entry.id]? with
      | none =>
        rw [earlier] at held
        obtain rfl : _ = holder := Option.some.inj held
        exact .inr ⟨isTold, isGiven, here, rfl⟩
      | some other =>
        rw [earlier] at held
        exact .inl held
    · exact .inl held
  · rw [ObjectProjection.lookup_add, held]
    simp

theorem removed (summed : projection.Summed) (isDropped : dropped entry.id) :
    ObjectReworked given told dropped service object projection (projection.remove entry).2 := by
  refine ⟨summed.remove entry, fun {id holder} held => ?_, fun {id holder} stays held => ?_⟩
  · rw [ObjectProjection.lookup_remove] at held
    split at held
    · exact nomatch held
    · exact .inl held
  · have different : entry.id ≠ id := fun same => stays (same ▸ isDropped)
    rw [ObjectProjection.lookup_remove, if_neg different]
    exact held

end ObjectReworked

/-- **The projection of one object may be reworked.** -/
theorem reworks_object {change : ObjectProjection → ObjectProjection} {object : ObjectRef}
    (changes : ∀ projection, projection.Summed →
      ObjectReworked given told dropped service object projection (change projection)) :
    Reworks given told dropped service
      { service with cache := { service.cache with
        objectProjections := service.cache.objectProjections.update object change } } := by
  intro tidy
  have each {other : ObjectRef} {projection : ObjectProjection}
      (found : (service.cache.objectProjections.update object change).value? other =
        some projection) :
      ∃ earlier, service.cache.objectProjections.value? other = some earlier ∧
        ObjectReworked given told dropped service other earlier projection := by
    rw [Shelf.value?_update] at found
    split at found
    · rename_i same
      subst same
      obtain ⟨earlier, was, rfl⟩ := Option.map_eq_some_iff.mp found
      exact ⟨earlier, was, changes earlier (tidy.summed was)⟩
    · exact ⟨projection, found, .refl (tidy.summed found)⟩
  have stays {other : ObjectRef} {earlier : ObjectProjection}
      (was : service.cache.objectProjections.value? other = some earlier) :
      ∃ projection,
        (service.cache.objectProjections.update object change).value? other = some projection ∧
          ObjectReworked given told dropped service other earlier projection := by
    rw [Shelf.value?_update, was]
    split
    · rename_i same
      subst same
      exact ⟨_, rfl, changes earlier (tidy.summed was)⟩
    · exact ⟨_, rfl, .refl (tidy.summed was)⟩
  refine ⟨rfl, rfl, rfl, rfl, rfl, { tidy with
    summed := fun {object projection} found => ?_,
    located := fun {object projection} found {id holder} held => ?_ },
    fun {kept} refers => ?_, fun _ _ _ lacks => lacks, fun {kept} _ stays lacks => ?_,
    fun _ => id, ⟨fun {object id holder} found => ?_, fun {object id holder} kept was => ?_⟩⟩
  · obtain ⟨_, _, reworked⟩ := each found
    exact reworked.summed
  · obtain ⟨earlier, was, reworked⟩ := each found
    rcases reworked.gains held with before | ⟨_, isGiven, here, _⟩
    · exact tidy.located was before
    · exact ⟨isGiven, here⟩
  · rcases refers with byId | ofUser | ⟨object, projection, found, id, holder, held, rfl⟩
    · exact .inl (.inl byId)
    · exact .inl (.inr (.inl ofUser))
    · obtain ⟨earlier, was, reworked⟩ := each found
      rcases reworked.gains held with before | ⟨isTold, _⟩
      · exact .inl (.inr (.inr ⟨object, earlier, was, id, holder, before, rfl⟩))
      · exact .inr (.inr isTold)
  · obtain ⟨projection, found, lacks⟩ := lacks
    obtain ⟨earlier, was, reworked⟩ := each found
    exact ⟨earlier, was, fun users => mt (reworked.keeps stays) (lacks users)⟩
  · obtain ⟨projection, found, held⟩ := listed?_eq_some_iff.mp found
    obtain ⟨earlier, was, reworked⟩ := each found
    rcases reworked.gains held with before | ⟨_, _, _, users⟩
    · exact .inl (listed?_eq_some_iff.mpr ⟨earlier, was, before⟩)
    · exact .inr users
  · obtain ⟨earlier, was, held⟩ := listed?_eq_some_iff.mp was
    obtain ⟨projection, found, reworked⟩ := stays was
    exact listed?_eq_some_iff.mpr ⟨projection, found, reworked.keeps kept held⟩

/-- The projection of its object gains the entry. -/
theorem reworks_addToObject (isTold : told entry) (isGiven : given entry.id = some entry) :
    Reworks given told dropped service
      { service with cache := { service.cache with
        objectProjections := service.cache.objectProjections.update entry.object fun projection =>
          (projection.add entry (service.directory.usersOf entry.identity)).2 } } :=
  reworks_object fun _ summed => .added summed isTold isGiven rfl

/-- The projection of its object loses the entry. -/
theorem reworks_removeFromObject (isDropped : dropped entry.id) :
    Reworks given told dropped service
      { service with cache := { service.cache with
        objectProjections := service.cache.objectProjections.update entry.object fun projection =>
          (projection.remove entry).2 } } :=
  reworks_object fun _ summed => .removed summed isDropped

/-! ### An addition -/

/-- A projection that was brought up to date does not lack the entry. -/
theorem Tidy.not_misses_of_added (tidy : Tidy given before) (isGiven : given entry.id = some entry)
    {user : UserId}
    (added : after.cache.userProjections.value? user =
      (before.cache.userProjections.value? user).map fun projection =>
        (projection.add before.registry entry).2) : ¬ Misses after entry user := by
  rintro ⟨_, _, projection, found, lacks⟩
  obtain ⟨earlier, was, rfl⟩ := Option.map_eq_some_iff.mp (added ▸ found)
  refine lacks ?_
  rw [UserProjection.lookup_add, if_pos rfl]
  cases held : earlier.entries[entry.id]? with
  | none => rfl
  | some kept => exact (tidy.applies was held).1.symm.trans isGiven

theorem ensures_addToUsers {users : List UserId} (tidy : Tidy given service)
    (isTold : told entry) (isGiven : given entry.id = some entry) (stays : ¬ dropped entry.id)
    (applies : ∀ user ∈ users, service.directory.Applies user entry.identity) :
    Ensures (addToUsers entry users) service
      (fun _ after => Reworked given told dropped service after ∧
        (service.store.Holds entry → ∀ user ∈ users, ¬ Misses after entry user))
      (fun fault _ => fault.isOutage = true) := by
  induction users generalizing service with
  | nil => exact ⟨tidy.reworked_of_quiet (.refl service), fun _ _ absent => nomatch absent⟩
  | cons user users ih =>
    -- Once the first user is served, the others follow, and the first one stays served.
    have rest {middle : Service} (first : Reworked given told dropped service middle)
        (served : ¬ Misses middle entry user) :
        Ensures (addToUsers entry users) middle
          (fun _ after => Reworked given told dropped service after ∧
            (service.store.Holds entry → ∀ other ∈ user :: users, ¬ Misses after entry other))
          (fun fault _ => fault.isOutage = true) := by
      have appliesLater : ∀ other ∈ users, middle.directory.Applies other entry.identity := by
        rw [first.directory]
        exact fun other member => applies other (.tail _ member)
      refine (ih first.tidy appliesLater).mono ?_ fun _ _ => id
      rintro _ after ⟨later, othersServed⟩
      refine ⟨first.trans later, fun holds => ?_⟩
      have holdsLater := first.holds_iff.mpr holds
      rintro other (_ | ⟨_, member⟩)
      · exact fun lacks => served (later.misses holdsLater stays lacks)
      · exact othersServed holdsLater other member
    unfold addToUsers
    split
    · simp only [ensures_bind, ensures_get]
      refine (ensures_loadedUserProjection user).mono ?_ fun _ _ => And.left
      rintro loaded middle ⟨_, quiet⟩
      have first : Reworked given told dropped service middle := tidy.reworked_of_quiet quiet
      have appliesNow : middle.directory.Applies user entry.identity := by
        rw [first.directory]
        exact applies user (.head _)
      refine rest (first.trans (reworks_addToUsers isTold isGiven (fun other => ?_) first.tidy)) ?_
      · rw [Shelf.value?_update]
        by_cases same : user = other
        · subst same
          exact .inr ⟨appliesNow, if_pos rfl⟩
        · exact .inl (if_neg same)
      · refine first.tidy.not_misses_of_added isGiven ?_
        show (Shelf.update _ user _).value? user = _
        rw [Shelf.value?_update, if_pos rfl]
    · rename_i isRoot
      refine rest (tidy.reworked_of_quiet (.refl service)) fun lacks => ?_
      exact isRoot (bne_iff_ne.mpr lacks.1)

/-- Where the entry stands for everyone, all cached projections are brought up to date. -/
theorem added_everyone (tidy : Tidy given service) (isTold : told entry)
    (isGiven : given entry.id = some entry)
    (stand : service.directory.usersOf entry.identity = .everyone)
    (updated : after = { service with cache := { service.cache with
      userProjections := service.cache.userProjections.updateAll fun projection =>
        (projection.add service.registry entry).2 } }) :
    Reworked given told dropped service after ∧ ∀ user, ¬ Misses after entry user := by
  subst updated
  have every (user : UserId) :
      (service.cache.userProjections.updateAll fun projection =>
        (projection.add service.registry entry).2).value? user =
      (service.cache.userProjections.value? user).map fun projection =>
        (projection.add service.registry entry).2 := Shelf.value?_updateAll _ _ _
  have applies (user : UserId) : service.directory.Applies user entry.identity := by
    rw [← Directory.contains_usersOf_iff, stand]
    rfl
  exact ⟨reworks_addToUsers isTold isGiven (fun user => .inr ⟨applies user, every user⟩) tidy,
    fun user => tidy.not_misses_of_added isGiven (every user)⟩

/-- Where the entry stands for some users, their projections are loaded and brought up to date. -/
theorem ensures_addToMembers (tidy : Tidy given service) (isTold : told entry)
    (isGiven : given entry.id = some entry) (stays : ¬ dropped entry.id)
    {users : Std.ExtTreeSet UserId}
    (stand : service.directory.usersOf entry.identity = .only users) :
    Ensures (addToUsers entry users.toList) service
      (fun _ after => Reworked given told dropped service after ∧
        (service.store.Holds entry → ∀ user, ¬ Misses after entry user))
      (fun fault _ => fault.isOutage = true) := by
  have listed (user : UserId) :
      user ∈ users.toList ↔ service.directory.Applies user entry.identity := by
    rw [← Directory.contains_usersOf_iff, stand, Std.ExtTreeSet.mem_toList]
    exact Std.ExtTreeSet.contains_iff_mem.symm
  refine (ensures_addToUsers tidy isTold isGiven stays fun user => (listed user).mp).mono ?_
    fun _ _ => id
  rintro _ after ⟨reworked, served⟩
  refine ⟨reworked, fun holds user lacks => served holds user ?_ lacks⟩
  have goes := lacks.2.1
  rw [reworked.directory] at goes
  exact (listed user).mpr (Directory.applies_of_mem_identitiesOf goes)

/-- Work an entry into the projection of its object, which is loaded where it is not in the
cache. -/
theorem ensures_objectGains (dropped : EntryId → Prop) (tidy : Tidy given service)
    (isTold : told entry)
    (isGiven : given entry.id = some entry) {users : UserIds}
    (resolved : users = service.directory.usersOf entry.identity) :
    Ensures (do
      match (← get).cache.objectProjections.get? entry.object with
      | some _ => updateObjectProjection entry.object fun projection =>
          (projection.add entry users).2
      | none =>
        let _ ← loadedObjectProjection entry.object) service
      (fun _ after => Reworked given told dropped service after ∧
        (service.store.Holds entry → ¬ MissesOn after entry))
      (fun fault _ => fault.isOutage = true) := by
  subst resolved
  simp only [ensures_bind, ensures_get]
  cases found : service.cache.objectProjections.get? entry.object with
  | some loaded =>
    refine ⟨reworks_addToObject isTold isGiven tidy, fun _ => ?_⟩
    rintro ⟨projection, cached, lacks⟩
    have cached : (Shelf.update _ entry.object _).value? entry.object = some projection := cached
    rw [Shelf.value?_update, if_pos rfl] at cached
    obtain ⟨earlier, was, rfl⟩ := Option.map_eq_some_iff.mp cached
    cases held : earlier.entries[entry.id]? with
    | none =>
      refine lacks (service.directory.usersOf entry.identity) ?_
      rw [ObjectProjection.lookup_add, if_pos rfl, held]
      rfl
    | some holder =>
      have same : holder.entry = entry :=
        Option.some.inj ((tidy.located was held).1.symm.trans isGiven)
      refine lacks holder.users ?_
      rw [ObjectProjection.lookup_add, if_pos rfl, held, ← same]
      rfl
  | none =>
    simp only [ensures_bind, ensures_pure]
    refine (ensures_loadedObjectProjection entry.object).mono ?_ fun _ _ => And.left
    rintro loaded after ⟨_, quiet⟩
    refine ⟨tidy.reworked_of_quiet quiet, fun holds lacks => ?_⟩
    obtain ⟨projection, cached, _⟩ := lacks.quiet tidy quiet holds
    unfold Shelf.value? at cached
    rw [found] at cached
    cases cached

/-- **An addition.** Afterwards the entry is remembered, and if it is stored, no projection that
should have it lacks it. -/
theorem ensures_applyAddition (dropped : EntryId → Prop) (tidy : Tidy given service)
    (isTold : told entry) (isGiven : given entry.id = some entry) (stays : ¬ dropped entry.id) :
    Ensures (applyAddition entry) service
      (fun _ after => Reworked given told dropped service after ∧
        after.cache.entries[entry.id]?.isSome = true ∧
        (service.store.Holds entry → (∀ user, ¬ Misses after entry user) ∧ ¬ MissesOn after entry))
      (fun fault _ => fault.isOutage = true) := by
  unfold applyAddition
  simp only [ensures_bind, ensures_modifyCache]
  have remembered : Reworked given told dropped service
      { service with cache := service.cache.putEntry entry } :=
    reworks_putEntry isTold isGiven tidy
  have isCached : (service.cache.putEntry entry).entries[entry.id]?.isSome = true := by
    show (service.cache.entries.insert entry.id entry)[entry.id]?.isSome = true
    rw [lookup_insert, if_pos rfl]
    rfl
  refine (ensures_resolveUsers entry.identity).mono ?_ fun _ _ => And.left
  rintro users middle ⟨rfl, quiet⟩
  have resolving : Reworked given told dropped _ middle := remembered.tidy.reworked_of_quiet quiet
  have known : Reworked given told dropped service middle := remembered.trans resolving
  have isCached := resolving.cached stays isCached
  rw [remembered.tidy.usersFor_eq, remembered.directory]
  -- The users are served; the projection of the object follows.
  have finish {later : Service} (reworked : Reworked given told dropped middle later)
      (served : middle.store.Holds entry → ∀ user, ¬ Misses later entry user) :
      Ensures (do
        match (← get).cache.objectProjections.get? entry.object with
        | some _ => updateObjectProjection entry.object fun projection =>
            (projection.add entry (service.directory.usersOf entry.identity)).2
        | none =>
          let _ ← loadedObjectProjection entry.object) later
        (fun _ after => Reworked given told dropped service after ∧
          after.cache.entries[entry.id]?.isSome = true ∧ (service.store.Holds entry →
            (∀ user, ¬ Misses after entry user) ∧ ¬ MissesOn after entry))
        (fun fault _ => fault.isOutage = true) := by
    have soFar := known.trans reworked
    refine (ensures_objectGains dropped soFar.tidy isTold isGiven ?_).mono ?_
      fun _ _ => id
    · rw [soFar.directory]
    · rintro _ after ⟨last, notMissedOn⟩
      refine ⟨soFar.trans last, last.cached stays (reworked.cached stays isCached),
        fun holds => ⟨fun user lacks => ?_, notMissedOn (soFar.holds_iff.mpr holds)⟩⟩
      exact served (known.holds_iff.mpr holds) user
        (last.misses (soFar.holds_iff.mpr holds) stays lacks)
  cases stand : service.directory.usersOf entry.identity with
  | everyone =>
    rw [stand] at finish
    obtain ⟨reworked, served⟩ := added_everyone known.tidy isTold isGiven
      (known.directory ▸ stand) rfl
    exact finish reworked fun _ => served
  | only users =>
    rw [stand] at finish
    refine ensures_bind.mpr ((ensures_addToMembers known.tidy isTold isGiven stays
      (known.directory ▸ stand)).mono ?_ fun _ _ => id)
    rintro _ later ⟨reworked, served⟩
    exact finish reworked served

/-! ### A removal -/

/-- The cached projection of the user has nothing under the number. -/
def Lacks (service : Service) (id : EntryId) (user : UserId) : Prop :=
  ∀ projection, service.cache.userProjections.value? user = some projection →
    projection.entries[id]? = none

theorem lacks_of_removed {user : UserId}
    (removed : after.cache.userProjections.value? user =
      (before.cache.userProjections.value? user).map fun projection =>
        (projection.remove before.registry entry).2) : Lacks after entry.id user := by
  intro projection found
  obtain ⟨earlier, _, rfl⟩ := Option.map_eq_some_iff.mp (removed ▸ found)
  rw [UserProjection.lookup_remove, if_pos rfl]

theorem ensures_removeFromUsers (told : Entry → Prop) {users : List UserId}
    (tidy : Tidy given service)
    (isDropped : dropped entry.id) (isGiven : given entry.id = some entry) :
    Ensures (removeFromUsers entry users) service
      (fun _ after => Reworked given told dropped service after ∧
        after.cache.entries = service.cache.entries ∧
        (∀ user, Lacks service entry.id user → Lacks after entry.id user) ∧
        ∀ user ∈ users, Lacks after entry.id user)
      (fun fault _ => fault.isOutage = true) := by
  induction users generalizing service with
  | nil => exact ⟨tidy.reworked_of_quiet (.refl service), rfl, fun _ => id, fun _ => nofun⟩
  | cons user users ih =>
    unfold removeFromUsers
    simp only [ensures_bind, ensures_get]
    generalize updated : ({ service with cache := { service.cache with
      userProjections := service.cache.userProjections.update user fun projection =>
        (projection.remove service.registry entry).2 } } : Service) = middle
    have value (other : UserId) : middle.cache.userProjections.value? other =
        if user = other then
          (service.cache.userProjections.value? other).map fun projection =>
            (projection.remove service.registry entry).2
        else service.cache.userProjections.value? other :=
      updated ▸ Shelf.value?_update _ _ _ _
    have first : Reworked given told dropped service middle := by
      subst updated
      refine reworks_removeFromUsers isDropped isGiven (fun other => ?_) tidy
      by_cases same : user = other
      · exact .inr ((value other).trans (if_pos same))
      · exact .inl ((value other).trans (if_neg same))
    have stays (other : UserId) (lacks : Lacks service entry.id other) :
        Lacks middle entry.id other := by
      by_cases same : user = other
      · exact lacks_of_removed ((value other).trans (if_pos same))
      · exact fun projection found => lacks projection (by rwa [value, if_neg same] at found)
    show Ensures (removeFromUsers entry users)
      { service with cache := { service.cache with userProjections := _ } } _ _
    rw [updated]
    refine (ih first.tidy).mono ?_ fun _ _ => id
    rintro _ after ⟨later, sameEntries, staysLater, othersLack⟩
    have cachedEntries : middle.cache.entries = service.cache.entries := updated ▸ rfl
    refine ⟨first.trans later, sameEntries.trans cachedEntries,
      fun other lacks => staysLater other (stays other lacks), ?_⟩
    rintro other (_ | ⟨_, member⟩)
    · exact staysLater _ (lacks_of_removed ((value _).trans (if_pos rfl)))
    · exact othersLack other member

/-- Where the entry is neither remembered nor in the projection of a user that it applies to,
nothing refers to it any more once it is out of the projection of its object. -/
theorem Tidy.not_refers_of_removed (tidy : Tidy given service)
    (notKept : service.cache.entries[entry.id]? ≠ some entry)
    (lack : ∀ user, service.directory.Applies user entry.identity →
      Lacks service entry.id user) :
    ¬ Refers { service with cache := { service.cache with
      objectProjections := service.cache.objectProjections.update entry.object fun projection =>
        (projection.remove entry).2 } } entry := by
  have number {id : EntryId} (here : given id = some entry) : entry.id = id := tidy.own here
  rintro (⟨id, found⟩ | ⟨user, projection, found, mentions⟩ |
    ⟨object, projection, found, id, holder, held, same⟩)
  · rw [← number (tidy.kept found)] at found
    exact notKept found
  · obtain ⟨id, held⟩ := (mentions_iff (tidy.settled found)).mp mentions
    obtain ⟨here, applies⟩ := tidy.applies found held
    rw [← number here, lack user applies projection found] at held
    cases held
  · have found : (Shelf.update _ entry.object _).value? object = some projection := found
    rw [Shelf.value?_update] at found
    have located {earlier : ObjectProjection}
        (was : service.cache.objectProjections.value? object = some earlier)
        (held : earlier.entries[id]? = some holder) : entry.id = id ∧ entry.object = object := by
      obtain ⟨here, onObject⟩ := tidy.located was held
      rw [same] at here onObject
      exact ⟨number here, onObject⟩
    split at found
    · obtain ⟨earlier, was, rfl⟩ := Option.map_eq_some_iff.mp found
      rw [ObjectProjection.lookup_remove] at held
      split at held
      · cases held
      · rename_i different
        exact different (located was held).1
    · rename_i different
      exact different (located found held).2

/-- **A removal.** Afterwards the cache does not refer to the entry, unless it is stored. -/
theorem ensures_applyRemoval (told : Entry → Prop) (tidy : Tidy given service)
    (isDropped : dropped entry.id)
    (isGiven : given entry.id = some entry) :
    Ensures (applyRemoval entry) service
      (fun _ after => Reworked given told dropped service after ∧
        (¬ service.store.Holds entry → ¬ Refers after entry))
      (fun fault _ => fault.isOutage = true) := by
  unfold applyRemoval
  simp only [ensures_bind, ensures_modifyCache]
  have forgotten : Reworked given told dropped service
      { service with cache := service.cache.removeEntry entry.id } :=
    reworks_removeEntry isDropped tidy
  have isGone : (service.cache.removeEntry entry.id).entries[entry.id]? = none := by
    show (service.cache.entries.erase entry.id)[entry.id]? = none
    rw [lookup_erase, if_pos rfl]
  refine (ensures_usersTouchedBy entry.identity).mono ?_ fun _ _ => And.left
  rintro users middle ⟨touched, quiet⟩
  have known : Reworked given told dropped service middle :=
    forgotten.trans (forgotten.tidy.reworked_of_quiet quiet)
  have stillGone (gone : ¬ service.store.Holds entry) :
      middle.cache.entries[entry.id]? ≠ some entry := by
    intro cached
    rcases quiet.kept entry.id with same | ⟨stored, listed, _, loaded⟩
    · cases cached.symm.trans (same.trans isGone)
    · obtain rfl := Option.some.inj (loaded.symm.trans cached)
      exact gone (tidy.numbered.mem_entryList.mp listed)
  -- All users that may have the entry have lost it; its object follows.
  have finish {later : Service} (reworked : Reworked given told dropped middle later)
      (sameEntries : later.cache.entries = middle.cache.entries)
      (lack : ∀ user, middle.directory.Applies user entry.identity → Lacks later entry.id user) :
      Ensures (updateObjectProjection entry.object fun projection => (projection.remove entry).2)
        later
        (fun _ after => Reworked given told dropped service after ∧
          (¬ service.store.Holds entry → ¬ Refers after entry))
        (fun fault _ => fault.isOutage = true) := by
    have soFar := known.trans reworked
    have last : Reworked given told dropped later _ :=
      reworks_removeFromObject isDropped soFar.tidy
    refine ⟨soFar.trans last, fun gone => soFar.tidy.not_refers_of_removed ?_ ?_⟩
    · rw [sameEntries]
      exact stillGone gone
    · rw [reworked.directory]
      exact lack
  cases users with
  | everyone =>
    have every (user : UserId) :
        (middle.cache.userProjections.updateAll fun projection =>
          (projection.remove middle.registry entry).2).value? user =
        (middle.cache.userProjections.value? user).map fun projection =>
          (projection.remove middle.registry entry).2 := Shelf.value?_updateAll _ _ _
    exact finish (reworks_removeFromUsers isDropped isGiven (fun user => .inr (every user))
      known.tidy) rfl fun user _ => lacks_of_removed (every user)
  | only users =>
    have covers (user : UserId) (applies : middle.directory.Applies user entry.identity) :
        user ∈ users.toList := by
      have stand : service.directory.usersOf entry.identity = .only users := by
        rcases touched with same | everyone
        · rw [same, forgotten.tidy.usersFor_eq]
        · cases everyone
      rw [known.directory, ← Directory.contains_usersOf_iff, stand] at applies
      exact Std.ExtTreeSet.mem_toList.mpr (Std.ExtTreeSet.contains_iff_mem.mp applies)
    refine ensures_bind.mpr ((ensures_removeFromUsers told known.tidy isDropped
      isGiven).mono ?_ fun _ _ => id)
    rintro _ later ⟨reworked, sameEntries, _, lack⟩
    exact finish reworked sameEntries fun user applies => lack user (covers user applies)

end Service

end BookingAccess
