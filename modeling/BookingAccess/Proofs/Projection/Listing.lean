/-
**The listings of a user projection name what a scan finds.**

A user projection keeps five listings of objects and patches each of them, for one object, with
every entry that comes or goes. The projection is filed when a listing names exactly the objects
whose holding belongs in it, and no class is left with an empty bucket. It stays filed whatever
comes or goes, also when an entry is taken away under another object than the one it came with:
an update changes the holding on a single object, and that object is filed again.

* `mem_ids_set`, `ClassIndex.Compact.set`: filing one object;
* `Filed.refile`, `Filed.apply`: one update;
* `objectsWith_updated`: the questions by class after any sequence of updates.
-/

import BookingAccess.Projection.User
import BookingAccess.Proofs.OrderedMap
import Mathlib.Data.List.Induction

namespace BookingAccess

open OrderedMap

/-! ### Filing one object -/

namespace ClassIndex

variable {index : ClassIndex}

/-- No class has an empty bucket. -/
def Compact (index : ClassIndex) : Prop :=
  ∀ objectClass : ObjectClass, index.buckets[objectClass]? ≠ some ∅

theorem mem_ids_set (object other : ObjectRef) (present : Bool) :
    other.id ∈ (index.set object present).ids other.objectClass ↔
      if object = other then present = true else other.id ∈ index.ids other.objectClass := by
  obtain ⟨objectClass, id⟩ := object
  obtain ⟨otherClass, otherId⟩ := other
  cases present with
  | true =>
    rw [set, if_pos rfl, ids_insert]
    by_cases sameClass : objectClass = otherClass
    · by_cases same : id = otherId <;> simp [sameClass, same, Std.ExtTreeSet.mem_insert]
    · simp [sameClass]
  | false =>
    rw [set, if_neg Bool.false_ne_true, ids_erase]
    by_cases sameClass : objectClass = otherClass
    · by_cases same : id = otherId <;> simp [sameClass, same, Std.ExtTreeSet.mem_erase]
    · simp [sameClass]

theorem compact_empty : Compact empty := fun objectClass => by simp [empty]

/-- Filing an object leaves no empty bucket, also when it was the last one of its class. -/
theorem Compact.set (compact : index.Compact) (object : ObjectRef) (present : Bool) :
    (index.set object present).Compact := by
  intro objectClass
  cases present with
  | true =>
    show (index.buckets.insert object.objectClass _)[objectClass]? ≠ _
    rw [lookup_insert]
    split
    · intro none
      have member : object.id ∈ (index.ids object.objectClass).insert object.id := by simp
      rw [Option.some.inj none] at member
      simp at member
    · exact compact objectClass
  | false =>
    show (index.erase object).buckets[objectClass]? ≠ _
    unfold erase
    by_cases last : ((index.ids object.objectClass).erase object.id).isEmpty = true
    · rw [if_pos last, lookup_erase]
      split
      · exact Option.some_ne_none _ |>.symm
      · exact compact objectClass
    · rw [if_neg last, lookup_insert]
      split
      · intro none
        exact last (Std.ExtTreeSet.isEmpty_iff.mpr (Option.some.inj none))
      · exact compact objectClass

/-- An index without empty buckets is what it names in each class. -/
theorem Compact.eq_of_ids (compact : index.Compact) {other : ClassIndex}
    (otherCompact : other.Compact)
    (same : ∀ objectClass, index.ids objectClass = other.ids objectClass) : index = other := by
  obtain ⟨buckets⟩ := index
  obtain ⟨others⟩ := other
  refine congrArg ClassIndex.mk (Std.ExtTreeMap.ext_getElem? fun objectClass => ?_)
  have here := same objectClass
  have bucket := compact objectClass
  have otherBucket := otherCompact objectClass
  simp only [ids] at here bucket otherBucket
  cases found : buckets[objectClass]? <;> cases foundOther : others[objectClass]? <;>
    simp_all

end ClassIndex

/-- Listings are the same when each of them is. -/
theorem Listings.ext_get {first second : Listings}
    (same : ∀ listing, first.get listing = second.get listing) : first = second := by
  have owned : first.owned = second.owned := same .owned
  have readable : first.readable = second.readable := same .readable
  have writable : first.writable = second.writable := same .writable
  have reservable : first.reservable = second.reservable := same .reservable
  have controllable : first.controllable = second.controllable := same .controllable
  cases first
  cases second
  simp_all

namespace UserProjection

variable {registry : Registry} {projection : UserProjection}

/-! ### Updates -/

/-- A call that brings an entry or takes it away. -/
inductive Update
  | add (entry : Entry)
  | remove (entry : Entry)
deriving DecidableEq

namespace Update

def entry : Update → Entry
  | .add entry => entry
  | .remove entry => entry

/-- What the call answers, and the projection after it. -/
def apply (update : Update) (registry : Registry) (projection : UserProjection) :
    Bool × UserProjection :=
  match update with
  | .add entry => projection.add registry entry
  | .remove entry => projection.remove registry entry

end Update

/-- The projection after these calls, from an empty one. -/
def updated (registry : Registry) (updates : List Update) : UserProjection :=
  updates.foldl (fun projection update => (update.apply registry projection).2) empty

theorem updated_concat (updates : List Update) (update : Update) :
    updated registry (updates ++ [update]) =
      (update.apply registry (updated registry updates)).2 := by
  simp [updated]

/-! ### Projections that are filed -/

/-- A listing names the objects whose holding belongs in it, and has no empty bucket. -/
structure Filed (projection : UserProjection) : Prop where
  mem_ids_iff : ∀ (listing : Listing) (object : ObjectRef),
    object.id ∈ (projection.listings.get listing).ids object.objectClass ↔
      listing.admits (projection.holding object) = true
  compact : ∀ listing : Listing, (projection.listings.get listing).Compact

theorem admits_empty (listing : Listing) : listing.admits .empty = false := by
  cases listing <;> simp [Listing.admits, Holding.empty]

theorem filed_empty : Filed empty where
  mem_ids_iff listing object := by
    have nothing : empty.listings.get listing = .empty := by cases listing <;> rfl
    rw [nothing, ClassIndex.ids_empty]
    simp [holding, empty, admits_empty]
  compact listing := by
    have nothing : empty.listings.get listing = .empty := by cases listing <;> rfl
    rw [nothing]
    exact ClassIndex.compact_empty

/-- Filing the one object whose holding has changed makes the projection filed again. -/
theorem Filed.refile (filed : Filed projection) {changed : UserProjection} {object : ObjectRef}
    (listings : changed.listings = projection.listings)
    (elsewhere : ∀ other, object ≠ other → changed.holding other = projection.holding other) :
    Filed (changed.refile object) := by
  have patched (listing : Listing) : (changed.refile object).listings.get listing =
      (projection.listings.get listing).set object
        (listing.admits (changed.holding object)) := by
    show (changed.listings.file object _).get listing = _
    rw [Listings.get_file, listings]
  constructor
  · intro listing other
    rw [patched, ClassIndex.mem_ids_set]
    show _ ↔ listing.admits (changed.holding other) = true
    by_cases same : object = other
    · rw [if_pos same, same]
    · rw [if_neg same, elsewhere other same]
      exact filed.mem_ids_iff listing other
  · intro listing
    rw [patched]
    exact (filed.compact listing).set object _

/-- A call changes nothing, or it changes the holding on the object of its entry and files that
object again. -/
theorem apply_cases (registry : Registry) (projection : UserProjection) (update : Update) :
    (update.apply registry projection).2 = projection ∨
      ∃ changed : UserProjection,
        (update.apply registry projection).2 = changed.refile update.entry.object ∧
          changed.listings = projection.listings ∧
          ∀ other, update.entry.object ≠ other → changed.holding other = projection.holding other := by
  cases update with
  | add entry =>
    simp only [Update.apply, Update.entry, add]
    split
    · exact .inl rfl
    · refine .inr ⟨_, rfl, rfl, fun other apart => ?_⟩
      show ((projection.holdings.insert entry.object _)[other]?).getD .empty = _
      rw [lookup_insert, if_neg apart, holding]
  | remove entry =>
    simp only [Update.apply, Update.entry, remove]
    split
    · refine .inr ⟨_, rfl, rfl, fun other apart => ?_⟩
      unfold holding
      split
      · rfl
      · dsimp only
        split
        · rw [lookup_erase, if_neg apart]
        · rw [lookup_insert, if_neg apart]
    · exact .inl rfl

theorem Filed.apply (filed : Filed projection) (update : Update) :
    Filed (update.apply registry projection).2 := by
  obtain unchanged | ⟨changed, refiled, listings, elsewhere⟩ :=
    apply_cases registry projection update
  · rw [unchanged]
    exact filed
  · rw [refiled]
    exact filed.refile listings elsewhere

theorem filed_updated (updates : List Update) : Filed (updated registry updates) := by
  induction updates using List.reverseRecOn with
  | nil => exact filed_empty
  | append_singleton updates update ih =>
    rw [updated_concat]
    exact ih.apply update

/-! ### Questions by class -/

/-- A scan names the objects of the class whose holding passes a test that an empty one fails. -/
theorem mem_scan_iff {objectClass : ObjectClass} {id : Int} {test : Holding → Bool}
    (selective : test .empty = false) :
    id ∈ projection.scan objectClass test ↔
      test (projection.holding ⟨objectClass, id⟩) = true := by
  have listed : id ∈ projection.scan objectClass test ↔
      ∃ held, projection.holdings[(⟨objectClass, id⟩ : ObjectRef)]? = some held ∧
        test held = true := by
    simp only [scan, Std.ExtTreeSet.mem_ofList, List.contains_iff_mem, List.mem_filterMap,
      Prod.exists, Std.ExtTreeMap.mem_toList_iff_getElem?_eq_some]
    constructor
    · rintro ⟨⟨otherClass, other⟩, held, found, picked⟩
      simp only [Bool.and_eq_true, beq_iff_eq, Option.ite_none_right_eq_some,
        Option.some.injEq] at picked
      obtain ⟨⟨rfl, passes⟩, rfl⟩ := picked
      exact ⟨held, found, passes⟩
    · rintro ⟨held, found, passes⟩
      exact ⟨⟨objectClass, id⟩, held, found, by simp [passes]⟩
  rw [listed, holding]
  cases projection.holdings[(⟨objectClass, id⟩ : ObjectRef)]? with
  | none => simp [selective]
  | some held => simp

namespace Filed

theorem ids_eq_scan (filed : Filed projection) (listing : Listing) (objectClass : ObjectClass) :
    (projection.listings.get listing).ids objectClass =
      projection.scan objectClass listing.admits := by
  refine Std.ExtTreeSet.ext_mem fun id => ?_
  rw [mem_scan_iff (admits_empty listing)]
  exact filed.mem_ids_iff listing ⟨objectClass, id⟩

theorem mem_objectsWithRole_iff (filed : Filed projection) {objectClass : ObjectClass}
    {role : Role} {id : Int} :
    id ∈ projection.objectsWithRole objectClass role ↔
      projection.hasRole ⟨objectClass, id⟩ role = true := by
  have scanned : id ∈ projection.scan objectClass (fun holding => holding.roles.contains role) ↔
      projection.hasRole ⟨objectClass, id⟩ role = true :=
    mem_scan_iff (by simp [Holding.empty])
  unfold objectsWithRole Listing.ofRole?
  split
  next listing kept =>
    split at kept
    next isOwner =>
      obtain rfl := Option.some.inj kept
      rw [filed.ids_eq_scan, ← scanned, beq_iff_eq.mp isOwner]
      rfl
    next => exact nomatch kept
  next => exact scanned

theorem mem_objectsWithPermission_iff (filed : Filed projection) {objectClass : ObjectClass}
    {permission : Permission} {id : Int} :
    id ∈ projection.objectsWithPermission objectClass permission ↔
      projection.hasPermission ⟨objectClass, id⟩ permission = true := by
  have scanned : id ∈ projection.scan objectClass
        (fun holding => holding.permissions.contains permission) ↔
      projection.hasPermission ⟨objectClass, id⟩ permission = true :=
    mem_scan_iff (by simp [Holding.empty])
  have admits {listing : Listing} (kept : Listing.ofPermission? permission = some listing) :
      listing.admits = fun holding => holding.permissions.contains permission := by
    grind [Listing.ofPermission?, Listing.admits]
  unfold objectsWithPermission
  split
  next listing kept => rw [filed.ids_eq_scan, admits kept, scanned]
  next => exact scanned

end Filed

/-- **The questions by class say what the questions by object say.** After any calls, with whatever
entries, the objects of a class with a role or a permission are those on which it is held. Each
listing names what a scan of the holdings finds, and no class is kept with an empty bucket. -/
theorem objectsWith_updated (registry : Registry) (updates : List Update)
    (objectClass : ObjectClass) :
    (∀ role id, id ∈ (updated registry updates).objectsWithRole objectClass role ↔
      (updated registry updates).hasRole ⟨objectClass, id⟩ role = true) ∧
    (∀ permission id,
      id ∈ (updated registry updates).objectsWithPermission objectClass permission ↔
        (updated registry updates).hasPermission ⟨objectClass, id⟩ permission = true) ∧
    ∀ listing, ((updated registry updates).listings.get listing).ids objectClass =
        (updated registry updates).scan objectClass listing.admits ∧
      ((updated registry updates).listings.get listing).buckets[objectClass]? ≠ some ∅ := by
  have filed : Filed (updated registry updates) := filed_updated updates
  refine ⟨fun role id => filed.mem_objectsWithRole_iff,
    fun permission id => filed.mem_objectsWithPermission_iff, fun listing => ⟨?_, ?_⟩⟩
  · exact filed.ids_eq_scan listing objectClass
  · exact filed.compact listing objectClass

end UserProjection

end BookingAccess
