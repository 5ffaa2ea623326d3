/-
**Projections, however they came about.**

The projection of a user is loaded and then kept up to date: entries come, as far as they concern
the user, and entries go, whatever is said of them. What is true of an empty projection and survives
both is true of every projection that is shown, also where a call was handed entries that never
were.

* `Derived`: what a projection may become; `Derived.trans`, `derived_ofEntries`;
* `Derived.filed`: its listings name what a scan of the holdings finds;
* `Grounded`, `Derived.grounded`: what is held on an object rests on entries that concern the user;
* `Grounded.hasRole_iff`, `Grounded.hasPermission_iff`: so do the answers.
-/

import BookingAccess.Proofs.Projection.Listing
import BookingAccess.Proofs.Projection.User

namespace BookingAccess.UserProjection

open OrderedMap

variable {registry : Registry} {fits fits' : Entry → Prop} {earlier middle : Option UserProjection}
  {projection : UserProjection}

/-- What becomes of a projection, or of none, as entries come that fit, and any entries go. -/
inductive Derived (registry : Registry) (fits : Entry → Prop) (earlier : Option UserProjection) :
    UserProjection → Prop
  | kept {projection : UserProjection} :
      earlier = some projection → Derived registry fits earlier projection
  | loaded : Derived registry fits earlier .empty
  | add {projection : UserProjection} (entry : Entry) :
      Derived registry fits earlier projection → fits entry →
      Derived registry fits earlier (projection.add registry entry).2
  | remove {projection : UserProjection} (entry : Entry) :
      Derived registry fits earlier projection →
      Derived registry fits earlier (projection.remove registry entry).2

namespace Derived

theorem trans (first : ∀ {projection}, middle = some projection →
      Derived registry fits earlier projection)
    (second : Derived registry fits middle projection) :
    Derived registry fits earlier projection := by
  induction second with
  | kept same => exact first same
  | loaded => exact .loaded
  | add entry _ suits ih => exact .add entry ih suits
  | remove entry _ ih => exact .remove entry ih

/-- **A projection stays filed**, whatever came and went. -/
theorem filed (before : ∀ {projection}, earlier = some projection → Filed projection)
    (derived : Derived registry fits earlier projection) : Filed projection := by
  induction derived with
  | kept same => exact before same
  | loaded => exact filed_empty
  | add entry _ _ ih => exact ih.apply (.add entry)
  | remove entry _ ih => exact ih.apply (.remove entry)

end Derived

theorem derived_foldl_add {entries : List Entry} (suit : ∀ entry ∈ entries, fits entry)
    (derived : Derived registry fits earlier projection) :
    Derived registry fits earlier
      (entries.foldl (fun kept entry => (kept.add registry entry).2) projection) := by
  induction entries generalizing projection with
  | nil => exact derived
  | cons entry entries ih =>
    exact ih (fun other member => suit other (.tail _ member))
      (.add entry derived (suit entry (.head _)))

/-- A projection that is made from entries that fit may come about anywhere. -/
theorem derived_ofEntries {entries : List Entry} (suit : ∀ entry ∈ entries, fits entry) :
    Derived registry fits earlier (ofEntries registry entries) :=
  derived_foldl_add suit .loaded

/-! ### What a holding rests on -/

/-- The holding on an object is the one that its entries give, and these are entries on the object
that fit. -/
structure Grounded (registry : Registry) (fits : Entry → Prop) (projection : UserProjection) :
    Prop where
  summed : ∀ object : ObjectRef, projection.holding object =
    .ofEntries registry object.objectClass (projection.holding object).entries
  fits : ∀ {object : ObjectRef} {entry : Entry},
    entry ∈ projection.entriesOn object → entry.object = object ∧ fits entry

namespace Grounded

theorem mono (grounded : Grounded registry fits projection)
    (follows : ∀ entry, fits entry → fits' entry) : Grounded registry fits' projection :=
  ⟨grounded.summed, fun listed => (grounded.fits listed).imp_right (follows _)⟩

theorem ofEmpty : Grounded registry fits empty where
  summed object := by
    show Holding.empty = Holding.ofEntries registry object.objectClass Holding.empty.entries
    exact (holding_of_no_entries object.objectClass).symm
  fits listed := by
    obtain ⟨id, found⟩ := mem_values_iff.mp listed
    exact nomatch Std.ExtTreeMap.getElem?_empty.symm.trans found

/-- Every holding is the old one or is worked out anew, from entries that were there before or are
on the object and fit. -/
theorem of_holdings {changed : UserProjection} (grounded : Grounded registry fits projection)
    (holdings : ∀ object : ObjectRef, changed.holding object = projection.holding object ∨
      ∃ entries, changed.holding object = .ofEntries registry object.objectClass entries ∧
        ∀ {id : EntryId} {entry : Entry}, entries[id]? = some entry →
          (projection.holding object).entries[id]? = some entry ∨
            entry.object = object ∧ fits entry) :
    Grounded registry fits changed where
  summed object := by
    rcases holdings object with same | ⟨entries, recomputed, -⟩
    · rw [same]
      exact grounded.summed object
    · rw [recomputed]
      rfl
  fits {object entry} listed := by
    unfold entriesOn at listed
    obtain ⟨id, found⟩ := mem_values_iff.mp listed
    rcases holdings object with same | ⟨entries, recomputed, known⟩
    · rw [same] at found
      exact grounded.fits (mem_values_iff.mpr ⟨id, found⟩)
    · rw [recomputed] at found
      rcases known found with earlier | new
      · exact grounded.fits (mem_values_iff.mpr ⟨id, earlier⟩)
      · exact new

theorem add (grounded : Grounded registry fits projection) {entry : Entry} (suits : fits entry) :
    Grounded registry fits (projection.add registry entry).2 := by
  cases taken : projection.entries[entry.id]? with
  | some kept =>
    have unchanged : (projection.add registry entry).2 = projection := by
      simp [UserProjection.add, Std.ExtTreeMap.contains_eq_isSome_getElem?, taken]
    rwa [unchanged]
  | none =>
    refine grounded.of_holdings fun object => ?_
    rw [holding_add taken]
    by_cases here : entry.object = object
    · refine .inr ⟨_, if_pos here, fun {id other} found => ?_⟩
      rw [lookup_insert] at found
      split at found
      · obtain rfl := Option.some.inj found
        exact .inr ⟨here, suits⟩
      · exact .inl found
    · exact .inl (if_neg here)

theorem remove (grounded : Grounded registry fits projection) (entry : Entry) :
    Grounded registry fits (projection.remove registry entry).2 := by
  refine grounded.of_holdings fun object => ?_
  cases kept : projection.entries.contains entry.id with
  | false =>
    left
    simp [UserProjection.remove, kept]
  | true =>
    cases found : projection.holdings[entry.object]? with
    | none =>
      left
      simp [UserProjection.remove, kept, found, holding, refile]
    | some held =>
      rw [holding_remove kept found]
      by_cases here : entry.object = object
      · subst here
        refine .inr ⟨_, if_pos rfl, fun {id other} stays => .inl ?_⟩
        rw [lookup_erase] at stays
        split at stays
        · cases stays
        · unfold holding
          rw [found]
          exact stays
      · exact .inl (if_neg here)

/-- A role is held exactly through an entry that grants it. -/
theorem hasRole_iff (grounded : Grounded registry fits projection) {object : ObjectRef}
    {role : Role} : projection.hasRole object role = true ↔
      ∃ entry ∈ projection.entriesOn object, entry.role = role := by
  unfold hasRole roles entriesOn
  rw [Std.ExtTreeSet.contains_iff_mem, grounded.summed]
  simp [Holding.ofEntries, Std.ExtTreeSet.mem_ofList]

/-- A permission is held exactly through an entry whose role gives it. -/
theorem hasPermission_iff (grounded : Grounded registry fits projection) {object : ObjectRef}
    {permission : Permission} : projection.hasPermission object permission = true ↔
      ∃ entry ∈ projection.entriesOn object,
        permission ∈ registry.rolePermissions object.objectClass entry.role := by
  unfold hasPermission permissions entriesOn
  rw [Std.ExtTreeSet.contains_iff_mem, grounded.summed]
  simp [Holding.ofEntries, Std.ExtTreeSet.mem_ofList]

end Grounded

/-- **What is shown stays grounded**, whatever came and went. -/
theorem Derived.grounded
    (before : ∀ {projection}, earlier = some projection → Grounded registry fits projection)
    (derived : Derived registry fits earlier projection) : Grounded registry fits projection := by
  induction derived with
  | kept same => exact before same
  | loaded => exact .ofEmpty
  | add entry _ suits ih => exact ih.add suits
  | remove entry _ ih => exact ih.remove entry

end BookingAccess.UserProjection
