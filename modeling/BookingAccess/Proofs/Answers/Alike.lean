/-
**States that show the same of some entries.**

Two states are alike among some entries when whoever is shown a projection, cached or loaded for the
occasion, finds the same of these entries in it.

* `Alike`: this relation; it is reflexive and transitive, and quiet calls keep it;
* `alike_of_stored`: a state with the same cache is alike among what is stored in both alike;
* `alike_applyRemoval`: so is the state after another entry has been taken out of the cache;
* `Inquiry.shown_of_alike`: states that are alike among all entries give the same answers.
-/

import BookingAccess.Proofs.Answers.Inquiry
import BookingAccess.Proofs.Cache.Rework

namespace BookingAccess

open Service OrderedMap

variable {among : EntryId → Prop} {before after service : Service} {entry : Entry}

/-- Projections that are shown have the same of these entries. -/
structure Alike (among : EntryId → Prop) (before after : Service) : Prop where
  registry : after.registry = before.registry
  toUser : ∀ (user : UserId) (id : EntryId), among id →
    (after.shownTo user).entries[id]? = (before.shownTo user).entries[id]?
  onObject : ∀ (object : ObjectRef) (id : EntryId), among id →
    (after.shownOn object).entries[id]? = (before.shownOn object).entries[id]?

namespace Alike

instance : IsPreorder Service (Alike among) where
  refl _ := ⟨rfl, fun _ _ _ => rfl, fun _ _ _ => rfl⟩
  trans _ _ _ first second := ⟨second.registry.trans first.registry,
    fun user id isAmong => (second.toUser user id isAmong).trans (first.toUser user id isAmong),
    fun object id isAmong =>
      (second.onObject object id isAmong).trans (first.onObject object id isAmong)⟩

theorem ofQuiet (quiet : Quiet before after) : Alike among before after where
  registry := quiet.registry
  toUser user _ _ := by rw [quiet.shownTo_eq]
  onObject object _ _ := by rw [quiet.shownOn_eq]

end Alike

/-! ### A store that has changed elsewhere -/

/-- **With the same cache, states are alike among the entries that they store alike.** -/
theorem alike_of_stored (cache : after.cache = before.cache)
    (directory : after.directory = before.directory) (registry : after.registry = before.registry)
    (numberedBefore : before.store.Numbered) (numberedAfter : after.store.Numbered)
    (stored : ∀ id, among id → after.store.get? id = before.store.get? id) :
    Alike among before after := by
  have holds_iff {id : EntryId} (isAmong : among id) (entry : Entry) (isEntry : entry.id = id) :
      after.store.Holds entry ↔ before.store.Holds entry := by
    unfold Store.Holds
    rw [isEntry, stored id isAmong]
  have usersFor : after.usersFor = before.usersFor := by
    funext identity
    unfold Service.usersFor Service.membersFor
    rw [cache, directory]
  refine ⟨registry, fun user id isAmong => ?_, fun object id isAmong => ?_⟩
  · unfold shownTo
    rw [cache]
    cases before.cache.userProjections.value? user with
    | some projection => rw [Option.getD_some, Option.getD_some]
    | none =>
      refine Option.ext fun entry => ?_
      rw [Option.getD_none, Option.getD_none, lookup_userProjectionOf numberedAfter,
        lookup_userProjectionOf numberedBefore, directory]
      exact and_congr_left fun ⟨_, isEntry⟩ => holds_iff isAmong entry isEntry
  · unfold shownOn
    rw [cache]
    cases before.cache.objectProjections.value? object with
    | some projection => rw [Option.getD_some, Option.getD_some]
    | none =>
      refine Option.ext fun holder => ?_
      rw [Option.getD_none, Option.getD_none, lookup_objectProjectionOf numberedAfter,
        lookup_objectProjectionOf numberedBefore, usersFor]
      exact and_congr_left fun ⟨_, isEntry, _⟩ => holds_iff isAmong holder.entry isEntry

/-! ### Entries that are taken out of the cache -/

/-- User projections on the shelf that are reworked, but not among these entries. -/
theorem alike_of_users {shelf : Shelf UserId UserProjection}
    (change : UserId → UserProjection → UserProjection)
    (reworked : ∀ user, shelf.value? user =
      (service.cache.userProjections.value? user).map (change user))
    (spares : ∀ user projection (id : EntryId), among id →
      (change user projection).entries[id]? = projection.entries[id]?) :
    Alike among service
      { service with cache := { service.cache with userProjections := shelf } } where
  registry := rfl
  toUser user id isAmong := by
    unfold shownTo
    rw [reworked]
    cases service.cache.userProjections.value? user with
    | none => rfl
    | some projection => exact spares user projection id isAmong
  onObject _ _ _ := rfl

/-- Object projections on the shelf likewise. -/
theorem alike_of_objects {shelf : Shelf ObjectRef ObjectProjection}
    (change : ObjectRef → ObjectProjection → ObjectProjection)
    (reworked : ∀ object, shelf.value? object =
      (service.cache.objectProjections.value? object).map (change object))
    (spares : ∀ object projection (id : EntryId), among id →
      (change object projection).entries[id]? = projection.entries[id]?) :
    Alike among service
      { service with cache := { service.cache with objectProjections := shelf } } where
  registry := rfl
  toUser _ _ _ := rfl
  onObject object id isAmong := by
    unfold shownOn
    rw [reworked]
    cases service.cache.objectProjections.value? object with
    | none => rfl
    | some projection => exact spares object projection id isAmong

section Removal

variable (other : ¬ among entry.id)
include other

theorem lookup_remove_among {registry : Registry} (projection : UserProjection) {id : EntryId}
    (isAmong : among id) :
    (projection.remove registry entry).2.entries[id]? = projection.entries[id]? := by
  rw [UserProjection.lookup_remove, if_neg]
  rintro rfl
  exact other isAmong

theorem alike_updateUserProjections {registry : Registry} :
    Keeps (Alike among)
      (updateUserProjections fun projection => (projection.remove registry entry).2) := by
  intro service
  exact alike_of_users (fun _ projection => (projection.remove registry entry).2)
    (Shelf.value?_updateAll _ _) fun _ projection _ => lookup_remove_among other projection

theorem alike_updateUserProjection {registry : Registry} (user : UserId) :
    Keeps (Alike among)
      (updateUserProjection user fun projection => (projection.remove registry entry).2) := by
  intro service
  refine alike_of_users (fun key projection =>
    if user = key then (projection.remove registry entry).2 else projection) (fun key => ?_)
    fun key projection _ isAmong => ?_
  · rw [Shelf.value?_update]
    split <;> simp
  · split
    · exact lookup_remove_among other projection isAmong
    · rfl

theorem alike_removeFromUsers (users : List UserId) :
    Keeps (Alike among) (removeFromUsers entry users) := by
  induction users with
  | nil => exact .pure
  | cons user users ih =>
    exact .bind .get fun _ => .bind (alike_updateUserProjection other user) fun _ => ih

theorem alike_updateObjectProjection :
    Keeps (Alike among)
      (updateObjectProjection entry.object fun projection => (projection.remove entry).2) := by
  intro service
  refine alike_of_objects (fun key projection =>
    if entry.object = key then (projection.remove entry).2 else projection) (fun key => ?_)
    fun key projection id isAmong => ?_
  · rw [Shelf.value?_update]
    split <;> simp
  · split
    · rw [ObjectProjection.lookup_remove, if_neg]
      rintro rfl
      exact other isAmong
    · rfl

/-- **Taking another entry out of the cache** changes nothing among these. -/
theorem alike_applyRemoval : Keeps (Alike among) (applyRemoval entry) := by
  unfold applyRemoval
  refine .bind (fun service => ⟨rfl, fun _ _ _ => rfl, fun _ _ _ => rfl⟩) fun _ => ?_
  refine .bind (fun service => (ensures_usersTouchedBy entry.identity).mono
    (fun _ _ touched => .ofQuiet touched.2) fun _ _ failed => .ofQuiet failed.2) fun users => ?_
  split
  · exact .bind .get fun _ => .bind (alike_updateUserProjections other) fun _ =>
      alike_updateObjectProjection other
  · exact .bind (alike_removeFromUsers other _) fun _ => alike_updateObjectProjection other

end Removal

/-! ### The same answers -/

theorem Service.Tidy.settled_shownTo {given : EntryId → Option Entry} (tidy : Tidy given service)
    (user : UserId) : (service.shownTo user).Settled service.registry := by
  unfold shownTo
  cases cached : service.cache.userProjections.value? user with
  | none => exact UserProjection.settled_ofEntries _
  | some projection => exact tidy.settled cached

theorem Service.Tidy.summed_shownOn {given : EntryId → Option Entry} (tidy : Tidy given service)
    (object : ObjectRef) : (service.shownOn object).Summed := by
  unfold shownOn
  cases cached : service.cache.objectProjections.value? object with
  | none => exact ObjectProjection.summed_ofEntries _ _
  | some projection => exact tidy.summed cached

/-- **States that are alike among all entries give the same answers.** -/
theorem Inquiry.shown_of_alike {given more : EntryId → Option Entry} (tidy : Tidy given before)
    (tidyAfter : Tidy more after) (alike : Alike (fun _ => True) before after)
    (inquiry : Inquiry) : inquiry.shown after = inquiry.shown before := by
  have toUser (user : UserId) (id : EntryId) := alike.toUser user id trivial
  cases inquiry with
  | hasRole user object role =>
    refine congrArg (user == rootUserId || ·) (Bool.eq_iff_iff.mpr ?_)
    rw [(tidyAfter.settled_shownTo user).hasRole_iff, (tidy.settled_shownTo user).hasRole_iff]
    simp only [toUser]
  | hasPermission user object permission =>
    refine congrArg (user == rootUserId || ·) (Bool.eq_iff_iff.mpr ?_)
    rw [(tidyAfter.settled_shownTo user).hasPermission_iff,
      (tidy.settled_shownTo user).hasPermission_iff, alike.registry]
    simp only [toUser]
  | isHolder object role user =>
    refine Bool.eq_iff_iff.mpr ?_
    show ((after.shownOn object).usersWithRole role).contains user = true ↔
      ((before.shownOn object).usersWithRole role).contains user = true
    rw [(tidyAfter.summed_shownOn object).contains_iff, (tidy.summed_shownOn object).contains_iff]
    simp only [alike.onObject object _ trivial]

end BookingAccess
