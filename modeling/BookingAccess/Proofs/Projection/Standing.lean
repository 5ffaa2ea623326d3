/-
**A user projection is what its standing entries give.**

Entries come and go in any order, and the same entry may come or go many times. The standing entries
are those whose last call brought them. As long as a number always stands for the same entry, the
projection is determined by the standing entries alone: it keeps each of them under its number,
holds on each object what they give there, and files what is held. So a projection that was kept up
to date answers as one that is made afresh, whatever came before.

* `Tracks`: everything in the projection is what the entries give;
* `Tracks.apply`, `tracks_updated`: one call, and all of them;
* `Tracks.unique`: two projections of the same entries are the same;
* `answers_updated`: what a projection answers after any calls.
-/

import BookingAccess.ObjectType.Booking
import BookingAccess.Proofs.Projection.Listing
import BookingAccess.Proofs.Projection.User
import Mathlib.Data.Finset.Card

namespace BookingAccess.UserProjection

open OrderedMap

variable {registry : Registry} {projection : UserProjection} {entries : Finset Entry}

/-! ### Standing entries -/

namespace Update

/-- What the call makes of the entries. -/
def change (update : Update) (entries : Finset Entry) : Finset Entry :=
  match update with
  | .add entry => insert entry entries
  | .remove entry => entries.erase entry

end Update

/-- Calls with the same number carry the same entry. -/
def Consistent (updates : List Update) : Prop :=
  ∀ first ∈ updates, ∀ second ∈ updates, first.entry.id = second.entry.id →
    first.entry = second.entry

instance {updates : List Update} : Decidable (Consistent updates) :=
  inferInstanceAs (Decidable (∀ first ∈ updates, ∀ second ∈ updates,
    first.entry.id = second.entry.id → first.entry = second.entry))

/-- The last call with this entry. -/
def lastCall (updates : List Update) (entry : Entry) : Option Update :=
  (updates.filter fun update => update.entry = entry).getLast?

/-- The entries whose last call brought them. -/
def standing (updates : List Update) : Finset Entry :=
  (updates.map Update.entry).toFinset.filter fun entry =>
    lastCall updates entry = some (.add entry)

theorem lastCall_concat (updates : List Update) (update : Update) (entry : Entry) :
    lastCall (updates ++ [update]) entry =
      if update.entry = entry then some update else lastCall updates entry := by
  unfold lastCall
  by_cases same : update.entry = entry <;> simp [same]

theorem mem_standing_iff {updates : List Update} {entry : Entry} :
    entry ∈ standing updates ↔ lastCall updates entry = some (.add entry) := by
  rw [standing, Finset.mem_filter, and_iff_right_iff_imp]
  intro last
  have called := List.mem_of_mem_filter (List.mem_of_getLast? last)
  exact List.mem_toFinset.mpr (List.mem_map_of_mem called)

theorem standing_concat (updates : List Update) (update : Update) :
    standing (updates ++ [update]) = update.change (standing updates) := by
  ext entry
  rw [mem_standing_iff, lastCall_concat]
  cases update with
  | add other =>
    show _ ↔ entry ∈ insert other (standing updates)
    rw [Finset.mem_insert, mem_standing_iff]
    by_cases same : other = entry
    · simp [Update.entry, same]
    · simp [Update.entry, same, Ne.symm same]
  | remove other =>
    show _ ↔ entry ∈ (standing updates).erase other
    rw [Finset.mem_erase, mem_standing_iff]
    by_cases same : other = entry
    · simp [Update.entry, same]
    · simp [Update.entry, same, Ne.symm same]

/-- A standing entry came with one of the calls. -/
theorem exists_call_of_mem_standing {updates : List Update} {entry : Entry}
    (stands : entry ∈ standing updates) : ∃ update ∈ updates, update.entry = entry := by
  rw [mem_standing_iff] at stands
  exact ⟨.add entry, List.mem_of_mem_filter (List.mem_of_getLast? stands), rfl⟩

/-! ### Projections of a set of entries -/

/-- Where a holding is kept, there is an entry. -/
def Occupied (projection : UserProjection) : Prop :=
  ∀ (object : ObjectRef) (held : Holding), projection.holdings[object]? = some held →
    held.entries ≠ ∅

theorem Occupied.apply (occupied : Occupied projection) (update : Update) :
    Occupied (update.apply registry projection).2 := by
  cases update with
  | add entry =>
    simp only [Update.apply, add]
    split
    · exact occupied
    · intro object held found
      change (projection.holdings.insert entry.object _)[object]? = some held at found
      rw [lookup_insert] at found
      split at found
      · rw [← Option.some.inj found]
        exact Std.ExtTreeMap.insert_ne_empty
      · exact occupied object held found
  | remove entry =>
    simp only [Update.apply, remove]
    split
    · intro object held found
      simp only [refile] at found
      split at found
      · exact occupied object held found
      · split at found
        · rw [lookup_erase] at found
          split at found
          · cases found
          · exact occupied object held found
        · rw [lookup_insert] at found
          split at found
          · rw [← Option.some.inj found]
            exact fun none => ‹¬ _› (Std.ExtTreeMap.isEmpty_iff.mpr none)
          · exact occupied object held found
    · exact occupied

/-- What is kept for an object can be told from what is held on it. -/
theorem Occupied.lookup_eq (occupied : Occupied projection) (object : ObjectRef) :
    projection.holdings[object]? =
      if (projection.holding object).entries = ∅ then none else some (projection.holding object) := by
  unfold holding
  cases found : projection.holdings[object]? with
  | none => simp [Holding.empty]
  | some held => simp [occupied object held found]

/-- The projection keeps these entries, and everything else in it is what they give. -/
structure Tracks (registry : Registry) (entries : Finset Entry) (projection : UserProjection) :
    Prop where
  lookup_iff : ∀ {id : EntryId} {entry : Entry},
    projection.entries[id]? = some entry ↔ entry ∈ entries ∧ entry.id = id
  settled : Settled registry projection
  filed : Filed projection
  occupied : Occupied projection

theorem tracks_empty : Tracks registry ∅ empty where
  lookup_iff := by simp [empty]
  settled := settled_empty
  filed := filed_empty
  occupied object held found := by simp [empty] at found

namespace Tracks

/-- A number is taken exactly when the entry under it is there. -/
theorem contains_iff_mem (tracks : Tracks registry entries projection) {entry : Entry}
    (agrees : ∀ kept ∈ entries, kept.id = entry.id → kept = entry) :
    projection.entries.contains entry.id = true ↔ entry ∈ entries := by
  rw [Std.ExtTreeMap.contains_eq_isSome_getElem?, Option.isSome_iff_exists]
  constructor
  · rintro ⟨kept, found⟩
    obtain ⟨member, sameId⟩ := tracks.lookup_iff.mp found
    exact agrees kept member sameId ▸ member
  · exact fun member => ⟨entry, tracks.lookup_iff.mpr ⟨member, rfl⟩⟩

/-- One call changes the entries, and the projection stays what they give. -/
theorem apply (tracks : Tracks registry entries projection) {update : Update}
    (agrees : ∀ kept ∈ entries, kept.id = update.entry.id → kept = update.entry) :
    Tracks registry (update.change entries) (update.apply registry projection).2 where
  lookup_iff {id entry} := by
    cases update with
    | add added =>
      have agrees : ∀ kept ∈ entries, kept.id = added.id → kept = added := agrees
      show (projection.add registry added).2.entries[id]? = some entry ↔
        entry ∈ insert added entries ∧ entry.id = id
      rw [lookup_add, Finset.mem_insert]
      by_cases same : added.id = id
      · have value : projection.entries[id]?.getD added = added := by
          cases found : projection.entries[id]? with
          | none => rfl
          | some other =>
            obtain ⟨member, sameId⟩ := tracks.lookup_iff.mp found
            exact agrees other member (sameId.trans same.symm)
        rw [if_pos same, value, Option.some.injEq]
        grind
      · rw [if_neg same, tracks.lookup_iff]
        grind
    | remove removed =>
      have agrees : ∀ kept ∈ entries, kept.id = removed.id → kept = removed := agrees
      show (projection.remove registry removed).2.entries[id]? = some entry ↔
        entry ∈ entries.erase removed ∧ entry.id = id
      rw [lookup_remove, Finset.mem_erase]
      by_cases same : removed.id = id
      · rw [if_pos same]
        grind
      · rw [if_neg same, tracks.lookup_iff]
        grind
  settled := by
    cases update with
    | add added => exact tracks.settled.add added
    | remove removed =>
      refine tracks.settled.remove fun kept found => ?_
      obtain ⟨member, sameId⟩ := tracks.lookup_iff.mp found
      exact congrArg Entry.object (agrees kept member sameId)
  filed := tracks.filed.apply update
  occupied := tracks.occupied.apply update

/-- A call answers that it was a change exactly when it changes the entries. -/
theorem answer_iff_change (tracks : Tracks registry entries projection) {update : Update}
    (agrees : ∀ kept ∈ entries, kept.id = update.entry.id → kept = update.entry) :
    (update.apply registry projection).1 = true ↔ update.change entries ≠ entries := by
  cases update with
  | add entry =>
    show (projection.add registry entry).1 = true ↔ insert entry entries ≠ entries
    have taken : projection.entries.contains entry.id = true ↔ entry ∈ entries :=
      tracks.contains_iff_mem agrees
    rw [Ne, Finset.insert_eq_self, ← taken, add]
    cases projection.entries.contains entry.id <;> simp
  | remove entry =>
    show (projection.remove registry entry).1 = true ↔ entries.erase entry ≠ entries
    have taken : projection.entries.contains entry.id = true ↔ entry ∈ entries :=
      tracks.contains_iff_mem agrees
    rw [Ne, Finset.erase_eq_self, not_not, ← taken, remove]
    cases projection.entries.contains entry.id <;> simp

/-- **Two projections of the same entries are the same.** -/
theorem unique (tracks : Tracks registry entries projection) {other : UserProjection}
    (otherTracks : Tracks registry entries other) : projection = other := by
  have sameEntries : projection.entries = other.entries :=
    Std.ExtTreeMap.ext_getElem? fun id =>
      Option.ext fun entry => tracks.lookup_iff.trans otherTracks.lookup_iff.symm
  have sameHolding (object : ObjectRef) : projection.holding object = other.holding object := by
    rw [tracks.settled.holding_eq, otherTracks.settled.holding_eq]
    unfold entriesAt
    rw [sameEntries]
  have sameHoldings : projection.holdings = other.holdings := by
    refine Std.ExtTreeMap.ext_getElem? fun object => ?_
    rw [tracks.occupied.lookup_eq, otherTracks.occupied.lookup_eq, sameHolding]
  have sameListing (listing : Listing) :
      projection.listings.get listing = other.listings.get listing := by
    refine (tracks.filed.compact listing).eq_of_ids (otherTracks.filed.compact listing)
      fun objectClass => Std.ExtTreeSet.ext_mem fun id => ?_
    rw [tracks.filed.mem_ids_iff listing ⟨objectClass, id⟩,
      otherTracks.filed.mem_ids_iff listing ⟨objectClass, id⟩, sameHolding]
  have sameListings : projection.listings = other.listings := Listings.ext_get sameListing
  cases projection
  cases other
  simp_all

end Tracks

theorem Consistent.agrees {updates : List Update} {update : Update}
    (consistent : Consistent (updates ++ [update])) :
    ∀ kept ∈ standing updates, kept.id = update.entry.id → kept = update.entry := by
  intro kept stands sameId
  obtain ⟨call, called, rfl⟩ := exists_call_of_mem_standing stands
  exact consistent call (List.mem_append_left _ called) update (by simp) sameId

theorem Consistent.of_append {updates later : List Update}
    (consistent : Consistent (updates ++ later)) : Consistent updates :=
  fun first called second calledToo =>
    consistent first (List.mem_append_left _ called) second (List.mem_append_left _ calledToo)

/-- After any consistent calls, the projection is what the standing entries give. -/
theorem tracks_updated {updates : List Update} (consistent : Consistent updates) :
    Tracks registry (standing updates) (updated registry updates) := by
  induction updates using List.reverseRecOn with
  | nil => exact tracks_empty
  | append_singleton updates update ih =>
    rw [standing_concat, updated_concat]
    exact (ih consistent.of_append).apply consistent.agrees

/-! ### Answers -/

/-- The projection answers as these entries say. -/
structure Answers (registry : Registry) (entries : Finset Entry) (projection : UserProjection) :
    Prop where
  holdsEntry_iff : ∀ id, projection.holdsEntry id = true ↔ ∃ entry ∈ entries, entry.id = id
  entryCount_eq : projection.entryCount = entries.card
  mem_entriesOn_iff : ∀ object entry,
    entry ∈ projection.entriesOn object ↔ entry ∈ entries ∧ entry.object = object
  nodup_entriesOn : ∀ object, (projection.entriesOn object).Nodup
  mem_roles_iff : ∀ object role,
    role ∈ projection.roles object ↔ ∃ entry ∈ entries, entry.object = object ∧ entry.role = role
  hasRole_iff : ∀ object role, projection.hasRole object role = true ↔
    ∃ entry ∈ entries, entry.object = object ∧ entry.role = role
  mem_permissions_iff : ∀ object permission, permission ∈ projection.permissions object ↔
    ∃ entry ∈ entries, entry.object = object ∧
      permission ∈ registry.rolePermissions object.objectClass entry.role
  hasPermission_iff : ∀ object permission, projection.hasPermission object permission = true ↔
    ∃ entry ∈ entries, entry.object = object ∧
      permission ∈ registry.rolePermissions object.objectClass entry.role
  nothing : ∀ object, (∀ entry ∈ entries, entry.object ≠ object) →
    projection.entriesOn object = [] ∧ projection.roles object = ∅ ∧
      projection.permissions object = ∅

namespace Tracks

theorem exists_lookup_iff (tracks : Tracks registry entries projection) {test : Entry → Prop} :
    (∃ (id : EntryId) (entry : Entry), projection.entries[id]? = some entry ∧ test entry) ↔
      ∃ entry ∈ entries, test entry := by
  simp only [tracks.lookup_iff]
  grind

theorem entryCount_eq (tracks : Tracks registry entries projection) :
    projection.entryCount = entries.card := by
  have once : projection.entries.values.Nodup := nodup_values fun found foundToo =>
    (tracks.lookup_iff.mp found).2.symm.trans (tracks.lookup_iff.mp foundToo).2
  have listed : projection.entries.values.toFinset = entries := by
    ext entry
    rw [List.mem_toFinset, mem_values_iff]
    simp [tracks.lookup_iff]
  rw [entryCount, ← length_values, ← listed, List.toFinset_card_of_nodup once]

/-- **A projection of some entries answers as they say.** -/
theorem answers (tracks : Tracks registry entries projection) :
    Answers registry entries projection := by
  have onObject (object : ObjectRef) (id : EntryId) (entry : Entry) :
      (projection.holding object).entries[id]? = some entry ↔
        (entry ∈ entries ∧ entry.id = id) ∧ entry.object = object := by
    rw [tracks.settled.lookup_holding, tracks.lookup_iff]
  have listed (object : ObjectRef) (entry : Entry) : entry ∈ projection.entriesOn object ↔
      entry ∈ entries ∧ entry.object = object := by
    rw [entriesOn, mem_values_iff]
    simp [onObject]
  have roles (object : ObjectRef) (role : Role) : projection.hasRole object role = true ↔
      ∃ entry ∈ entries, entry.object = object ∧ entry.role = role := by
    rw [tracks.settled.hasRole_iff, tracks.exists_lookup_iff]
  have permissions (object : ObjectRef) (permission : Permission) :
      projection.hasPermission object permission = true ↔ ∃ entry ∈ entries,
        entry.object = object ∧
          permission ∈ registry.rolePermissions object.objectClass entry.role := by
    rw [tracks.settled.hasPermission_iff, tracks.exists_lookup_iff]
  refine ⟨fun id => ?_, tracks.entryCount_eq, listed, fun object => ?_, ?_, roles, ?_,
    permissions, fun object none => ⟨?_, ?_, ?_⟩⟩
  · rw [holdsEntry, Std.ExtTreeMap.contains_eq_isSome_getElem?, Option.isSome_iff_exists]
    simp [tracks.lookup_iff]
  · exact nodup_values fun found foundToo =>
      ((onObject object _ _).mp found).1.2.symm.trans ((onObject object _ _).mp foundToo).1.2
  · intro object role
    rw [← roles, hasRole, Std.ExtTreeSet.contains_iff_mem]
  · intro object permission
    rw [← permissions, hasPermission, Std.ExtTreeSet.contains_iff_mem]
  · refine List.eq_nil_iff_forall_not_mem.mpr fun entry member => ?_
    obtain ⟨kept, here⟩ := (listed object entry).mp member
    exact none entry kept here
  · refine Std.ExtTreeSet.ext_mem fun role => ?_
    rw [← Std.ExtTreeSet.contains_iff_mem, ← hasRole, roles]
    simpa using fun entry kept here _ => none entry kept here
  · refine Std.ExtTreeSet.ext_mem fun permission => ?_
    rw [← Std.ExtTreeSet.contains_iff_mem, ← hasPermission, permissions]
    simpa using fun entry kept here _ => none entry kept here

end Tracks

/-- **A user projection says what the standing entries say.** After any calls that agree about the
entry under each number, it answers as the entries whose last call brought them. A call answers that
it was a change exactly when it changed them. Other calls that leave the same entries standing leave
the same projection, whatever their order and however often they were repeated. -/
theorem answers_updated (registry : Registry) {updates : List Update}
    (consistent : Consistent updates) :
    Answers registry (standing updates) (updated registry updates) ∧
    (∀ earlier update later, updates = earlier ++ update :: later →
      ((update.apply registry (updated registry earlier)).1 = true ↔
        standing (earlier ++ [update]) ≠ standing earlier)) ∧
    ∀ others, Consistent others → standing others = standing updates →
      updated registry others = updated registry updates := by
  refine ⟨(tracks_updated consistent).answers, ?_, ?_⟩
  · rintro earlier update later rfl
    rw [List.append_cons] at consistent
    have soFar : Consistent (earlier ++ [update]) := consistent.of_append
    rw [standing_concat]
    exact (tracks_updated soFar.of_append).answer_iff_change soFar.agrees
  · intro others otherConsistent same
    refine (tracks_updated otherConsistent).unique ?_
    rw [same]
    exact tracks_updated consistent

/-- Two entries that give the same permission come and go, and one of them comes back. -/
def returningUpdates : List Update :=
  let owner : Entry := ⟨1, .user "1", ⟨.resource, 1⟩, .owner⟩
  let reader : Entry := ⟨2, .group "5", ⟨.resource, 1⟩, .reader⟩
  [.add owner, .add reader, .add owner, .remove owner, .remove reader, .remove reader, .add reader]

theorem answers_after_returningUpdates :
    Answers .booking {⟨2, .group "5", ⟨.resource, 1⟩, .reader⟩}
        (updated .booking returningUpdates) ∧
      updated .booking returningUpdates =
        updated .booking [.add ⟨2, .group "5", ⟨.resource, 1⟩, .reader⟩] := by
  have consistent : Consistent returningUpdates := by decide +kernel
  have stands : standing returningUpdates = {⟨2, .group "5", ⟨.resource, 1⟩, .reader⟩} := by
    decide +kernel
  obtain ⟨answers, -, same⟩ := answers_updated .booking consistent
  refine ⟨stands ▸ answers, (same [.add ⟨2, .group "5", ⟨.resource, 1⟩, .reader⟩] ?_ ?_).symm⟩
  · decide +kernel
  · decide +kernel

end BookingAccess.UserProjection
