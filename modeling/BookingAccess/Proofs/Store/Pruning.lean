/-
**What a deletion leaves.**

When an entry goes, the entries that were granted for it are looked at in turn. So in the end an
entry whose parent has gone is gone as well, or another parent holds it. What has a parent that the
deletion does not come to is never lost.

* `Upheld`: an entry that is gone or has a parent;
* `Pruned`: entries are gone with the dependencies on them, and each entry is upheld that had one of
  them for its parent; `Pruned.trans`, `Pruned.ofDeletion`: how such deletions are put together;
* `Revoked.spares`: entries that uphold each other outlast a deletion that is not aimed at them.
-/

import BookingAccess.Proofs.Store.Steps

namespace BookingAccess.Store

variable {spared : Dependency → Prop} {deletion : Deletion} {origin before middle after : Store}
  {entry : Entry} {id : EntryId}

/-- Some parent holds the entry. -/
def HasParent (store : Store) (id : EntryId) : Prop :=
  ∃ dependency ∈ store.dependencies, dependency.child = id

theorem dependenciesOfChild_eq_nil_iff :
    before.dependenciesOfChild id = [] ↔ ¬ before.HasParent id := by
  simp [dependenciesOfChild, HasParent]

/-- How a call tells whether there is one. -/
theorem hasParent_iff :
    (!(before.dependenciesOfChild id).isEmpty) = true ↔ before.HasParent id := by
  rw [Bool.not_eq_true', ← Bool.not_eq_true, List.isEmpty_iff, dependenciesOfChild_eq_nil_iff,
    Classical.not_not]

/-- The entry is gone, or some parent holds it. -/
def Upheld (store : Store) (id : EntryId) : Prop := store.get? id = none ∨ store.HasParent id

/-- Entries are gone together with the dependencies on them. Where one was the parent of another
entry that is still there, this has another parent, unless the dependency was spared. -/
structure Pruned (spared : Dependency → Prop) (before after : Store) : Prop where
  within : ∀ {id entry}, after.get? id = some entry → before.get? id = some entry
  dependencies : after.dependencies = before.dependencies.filter fun dependency =>
    (after.get? dependency.parent).isSome && (after.get? dependency.child).isSome
  upheld : ∀ dependency ∈ before.dependencies, ¬ spared dependency →
    after.get? dependency.parent = none → after.Upheld dependency.child

namespace Pruned

protected theorem refl (anchored : before.Anchored) : Pruned spared before before where
  within := id
  dependencies := (List.filter_eq_self.mpr fun dependency member =>
    Bool.and_eq_true_iff.mpr (anchored dependency member)).symm
  upheld dependency member _ free := by
    have stored := (anchored dependency member).1
    rw [free] at stored
    exact nomatch stored

theorem gone (pruned : Pruned spared before after) (free : before.get? id = none) :
    after.get? id = none := by
  cases found : after.get? id with
  | none => rfl
  | some entry => exact nomatch free.symm.trans (pruned.within found)

/-- What is still stored under the number of an entry is this entry. -/
theorem holds (pruned : Pruned spared before after) (held : before.Holds entry)
    (stored : (after.get? entry.id).isSome = true) : after.Holds entry := by
  obtain ⟨kept, found⟩ := Option.isSome_iff_exists.mp stored
  obtain rfl := Option.some.inj ((pruned.within found).symm.trans held)
  exact found

theorem mem_dependencies (pruned : Pruned spared before after) {dependency : Dependency} :
    dependency ∈ after.dependencies ↔ dependency ∈ before.dependencies ∧
      (after.get? dependency.parent).isSome = true ∧
      (after.get? dependency.child).isSome = true := by
  rw [pruned.dependencies, List.mem_filter, Bool.and_eq_true_iff]

/-- What was upheld before still is. -/
theorem stillUpheld (pruned : Pruned (fun _ => False) before after) (upheld : before.Upheld id) :
    after.Upheld id := by
  rcases upheld with free | ⟨dependency, member, rfl⟩
  · exact .inl (pruned.gone free)
  · cases childKept : after.get? dependency.child with
    | none => exact .inl childKept
    | some child =>
      cases parentKept : after.get? dependency.parent with
      | none => exact pruned.upheld dependency member not_false parentKept
      | some parent =>
        exact .inr ⟨dependency, pruned.mem_dependencies.mpr
          ⟨member, parentKept ▸ rfl, childKept ▸ rfl⟩, rfl⟩

/-- One deletion after another. -/
theorem trans (first : Pruned spared before middle)
    (second : Pruned (fun _ => False) middle after) : Pruned spared before after where
  within found := first.within (second.within found)
  dependencies := by
    rw [second.dependencies, first.dependencies, List.filter_filter]
    refine List.filter_congr fun dependency _ => ?_
    have still (id : EntryId) :
        ((after.get? id).isSome && (middle.get? id).isSome) = (after.get? id).isSome := by
      cases found : after.get? id with
      | none => rfl
      | some entry => rw [second.within found]; rfl
    rw [← still dependency.parent, ← still dependency.child]
    cases (after.get? dependency.parent).isSome <;>
      cases (after.get? dependency.child).isSome <;> simp
  upheld dependency member unspared free := by
    cases parentKept : middle.get? dependency.parent with
    | none => exact second.stillUpheld (first.upheld dependency member unspared parentKept)
    | some parent =>
      cases childKept : middle.get? dependency.child with
      | none => exact .inl (second.gone childKept)
      | some child =>
        have kept := first.mem_dependencies.mpr ⟨member, parentKept ▸ rfl, childKept ▸ rfl⟩
        exact second.upheld dependency kept not_false free

/-- More may be spared. -/
theorem mono {more : Dependency → Prop} (pruned : Pruned spared before after)
    (spares : ∀ dependency, spared dependency → more dependency) : Pruned more before after where
  within := pruned.within
  dependencies := pruned.dependencies
  upheld dependency member unspared :=
    pruned.upheld dependency member (mt (spares dependency) unspared)

/-- Both ends of what is left are stored. -/
theorem anchored (pruned : Pruned spared before after) : after.Anchored := fun _ member =>
  (pruned.mem_dependencies.mp member).2

/-- One entry was deleted, and what came afterwards has upheld its children. -/
theorem ofDeletion (result : before.deleteEntry id = .ok middle)
    (below : Pruned (fun _ => False) middle after)
    (children : ∀ dependency ∈ before.dependencies, dependency.parent = id → ¬ spared dependency →
      after.Upheld dependency.child) : Pruned spared before after := by
  have free : after.get? id = none :=
    below.gone ((get?_of_deleteEntry result).trans (if_pos rfl))
  refine ⟨fun {number entry} found => ?_, ?_, fun dependency member unspared parentFree => ?_⟩
  · have found := below.within found
    rw [get?_of_deleteEntry result] at found
    split at found
    · exact nomatch found
    · exact found
  · rw [below.dependencies, (deleteEntry_eq_ok_iff.mp result).2, List.filter_filter]
    refine List.filter_congr fun dependency _ => ?_
    cases touched : dependency.touches id with
    | false => simp
    | true => rcases (dependency.touches_iff _).mp touched with same | same <;> simp [same, free]
  · by_cases isParent : dependency.parent = id
    · exact children dependency member isParent unspared
    · by_cases isChild : dependency.child = id
      · exact .inl (isChild ▸ free)
      · exact below.upheld dependency
          ((mem_dependencies_of_deleteEntry result).mpr ⟨member, isParent, isChild⟩)
          not_false parentFree

end Pruned

/-! ### What is never lost -/

/-- **Entries that uphold each other outlast a deletion that is not aimed at them**, with the
dependencies between them: whoever among them has a parent has one among them. -/
theorem Revoked.spares (among : EntryId → Prop) (revoked : Revoked origin deletion origin after)
    (notAimed : ∀ id, among id → ¬ deletion.AimedAt origin id)
    (held : ∀ id, among id → origin.HasParent id →
      ∃ dependency ∈ origin.dependencies, dependency.child = id ∧ among dependency.parent) :
    (∀ id, among id → after.get? id = origin.get? id) ∧
    ∀ dependency ∈ origin.dependencies, among dependency.parent → among dependency.child →
      dependency ∈ after.dependencies := by
  induction revoked with
  | refl => exact ⟨fun _ _ => rfl, fun _ member _ _ => member⟩
  | @tail middle after _ step ih =>
    obtain ⟨entries, dependencies⟩ := ih
    cases step with
    | @cut parent child aimed =>
      refine ⟨entries, fun dependency member isParent isChild => ?_⟩
      refine mem_dependencies_of_deleteDependency.mpr
        ⟨dependencies dependency member isParent isChild, ?_⟩
      rintro ⟨-, rfl⟩
      exact notAimed _ isChild aimed
    | @deleted _ entry _ _ orphan reached result =>
      -- A deletion follows dependencies to what it is not aimed at, and a parent is still there.
      have apart : ¬ among entry.id := by
        intro isAmong
        have hasParent : origin.HasParent entry.id := by
          generalize entry.id = id at reached isAmong
          cases reached with
          | aimed aimed => exact absurd aimed (notAimed _ isAmong)
          | followed _ _ member _ => exact ⟨_, member, rfl⟩
        obtain ⟨dependency, member, isChild, parentAmong⟩ := held _ isAmong hasParent
        exact dependenciesOfChild_eq_nil_iff.mp orphan
          ⟨dependency, dependencies dependency member parentAmong (isChild ▸ isAmong), isChild⟩
      have different {id : EntryId} (isAmong : among id) : id ≠ entry.id := fun same =>
        apart (same ▸ isAmong)
      refine ⟨fun id isAmong => ?_, fun dependency member isParent isChild => ?_⟩
      · rw [get?_of_deleteEntry result, if_neg (different isAmong).symm]
        exact entries id isAmong
      · exact (mem_dependencies_of_deleteEntry result).mpr
          ⟨dependencies dependency member isParent isChild, different isParent, different isChild⟩

end BookingAccess.Store
