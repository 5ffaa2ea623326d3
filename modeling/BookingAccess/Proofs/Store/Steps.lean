/-
**How grants and deletions change the store.**

A call that grants stores an entry or links a child entry to a stored parent entry, step by step. A
call that revokes deletes an entry that it is aimed at, or one that it has come to by a dependency
on a deleted entry and that has no parent left; before that it may cut entries it is aimed at off
from their parents. Nothing else happens to the store, wherever such a call ends.

* `GrantStep`, `RevokeStep`: the steps; `Granted`, `Revoked`: a call or a part of one;
* `Deletion`, `Reached`: what a call that revokes is for, and how far it has come;
* `Lawful`: what the registry asks of the entries and of the dependencies of a store;
* `Lawful.granted`, `Lawful.revoked`: both kinds of calls keep it.
-/

import BookingAccess.ObjectType.Registry
import BookingAccess.Proofs.Store.Intact
import Mathlib.Logic.Relation

namespace BookingAccess

/-- What a call that revokes is for. -/
structure Deletion where
  /-- The entries that it is aimed at. -/
  aims : Entry → Prop
  /-- Children of those stay where their dependency can be detached. -/
  detaches : Bool

/-- The deletion of the entry with this number. -/
def Deletion.ofEntry (id : EntryId) (detaches : Bool) : Deletion := ⟨(·.id = id), detaches⟩

/-- The deletion of entries on this object. -/
def Deletion.ofObject (object : ObjectRef) (detaches : Bool) : Deletion :=
  ⟨(·.object = object), detaches⟩

/-- Whatever the store holds under this number, the call is aimed at it. -/
def Deletion.AimedAt (deletion : Deletion) (store : Store) (id : EntryId) : Prop :=
  ∀ entry, store.Holds entry → entry.id = id → deletion.aims entry

namespace Store

variable {registry : Registry} {who : Identity → Prop} {deletion : Deletion}
  {origin before after : Store} {entry other : Entry} {id : EntryId}

/-! ### Known entries -/

/-- The number of the entry was given out, and the store keeps no other entry under it. -/
structure Knows (store : Store) (entry : Entry) : Prop where
  given : entry.id ≤ store.lastId
  agrees : store.Agrees entry

theorem Numbered.knows (numbered : before.Numbered) (holds : before.Holds entry) :
    before.Knows entry :=
  ⟨(numbered _ _ holds).2, holds.agrees⟩

/-- A new entry gets a new number, so what is known stays known. -/
theorem Knows.createEntry {identity : Identity} {object : ObjectRef} {role : Role}
    (known : before.Knows entry)
    (result : before.createEntry identity object role = .ok (other, after)) :
    after.Knows entry := by
  obtain ⟨-, isNew, stored⟩ := createEntry_eq_ok_iff.mp result
  refine ⟨?_, fun kept found => ?_⟩
  · rw [stored]
    exact Nat.le_succ_of_le known.given
  · rw [get?_of_createEntry result, if_neg] at found
    · exact known.agrees kept found
    · rw [isNew]
      exact Nat.ne_of_gt (Nat.lt_succ_of_le known.given)

theorem Knows.created {identity : Identity} {object : ObjectRef} {role : Role}
    (result : before.createEntry identity object role = .ok (entry, after)) :
    after.Knows entry := by
  refine ⟨?_, fun kept found => ?_⟩
  · obtain ⟨-, rfl, rfl⟩ := createEntry_eq_ok_iff.mp result
    exact Nat.le_refl _
  · rw [get?_of_createEntry result, if_pos rfl] at found
    exact (Option.some.inj found).symm

theorem Knows.deleteEntry (known : before.Knows entry)
    (result : before.deleteEntry id = .ok after) : after.Knows entry := by
  refine ⟨?_, fun kept found => ?_⟩
  · rw [(deleteEntry_eq_ok_iff.mp result).2]
    exact known.given
  · rw [get?_of_deleteEntry result] at found
    split at found
    · exact nomatch found
    · exact known.agrees kept found

/-! ### Granting -/

/-- One change of the store by a call that grants to some of these identities. -/
inductive GrantStep (registry : Registry) (who : Identity → Prop) (before : Store) : Store → Prop
  | stored {identity : Identity} {object : ObjectRef} {role : Role} {entry : Entry}
      {after : Store} : who identity → registry.allows object.objectClass role = true →
      before.createEntry identity object role = .ok (entry, after) →
      GrantStep registry who before after
  | linked {parent child : Entry} {kind : DependencyKind} {after : Store} :
      before.Holds parent → before.Holds child → who parent.identity →
      child.identity = parent.identity →
      registry.isPropagatable parent.object.objectClass parent.role = true →
      before.createDependency ⟨parent.id, child.id, kind⟩ = .ok after →
      GrantStep registry who before after

/-- The changes of the store by a call that grants. -/
abbrev Granted (registry : Registry) (who : Identity → Prop) : Store → Store → Prop :=
  Relation.ReflTransGen (GrantStep registry who)

/-- What is known stays known. -/
theorem GrantStep.knows (step : GrantStep registry who before after)
    (known : before.Knows entry) : after.Knows entry := by
  cases step with
  | stored _ _ result => exact known.createEntry result
  | linked _ _ _ _ _ result =>
    obtain ⟨-, -, -, rfl⟩ := createDependency_eq_ok_iff.mp result
    exact ⟨known.given, known.agrees⟩

theorem Granted.knows (granted : Granted registry who before after)
    (known : before.Knows entry) : after.Knows entry := by
  induction granted with
  | refl => exact known
  | tail _ step ih => exact step.knows ih

theorem GrantStep.numbered (step : GrantStep registry who before after)
    (numbered : before.Numbered) : after.Numbered := by
  cases step with
  | stored _ _ result => exact numbered.createEntry result
  | linked _ _ _ _ _ result =>
    obtain ⟨-, -, -, rfl⟩ := createDependency_eq_ok_iff.mp result
    exact numbered

/-! ### Revoking -/

/-- The call has come to this number: it is aimed at what the store held there when it began, or it
has followed a dependency from a number that it had come to and that is free by now. From an entry
whose children are detached it follows only a dependency that cannot be. -/
inductive Reached (origin : Store) (deletion : Deletion) (store : Store) : Bool → EntryId → Prop
  | aimed {id : EntryId} : deletion.AimedAt origin id →
      Reached origin deletion store deletion.detaches id
  | followed {detaches : Bool} {dependency : Dependency} :
      Reached origin deletion store detaches dependency.parent →
      store.get? dependency.parent = none → dependency ∈ origin.dependencies →
      (detaches = true → dependency.kind = .cascade) →
      Reached origin deletion store false dependency.child

/-- The call has come as far, whatever else is gone. -/
theorem Reached.mono {detaches : Bool} (reached : Reached origin deletion before detaches id)
    (gone : ∀ id, before.get? id = none → after.get? id = none) :
    Reached origin deletion after detaches id := by
  induction reached with
  | aimed aimed => exact .aimed aimed
  | followed _ free member follows ih => exact .followed ih (gone _ free) member follows

/-- One change of the store by a call that revokes and that began with the store `origin`. -/
inductive RevokeStep (origin : Store) (deletion : Deletion) (before : Store) : Store → Prop
  | cut (parent : EntryId) {child : EntryId} : deletion.AimedAt origin child →
      RevokeStep origin deletion before (before.deleteDependency parent child)
  | deleted {detaches : Bool} {entry : Entry} {after : Store} :
      before.Holds entry → before.dependenciesOfChild entry.id = [] →
      Reached origin deletion before detaches entry.id →
      before.deleteEntry entry.id = .ok after → RevokeStep origin deletion before after

/-- The changes of the store by a call that revokes. -/
abbrev Revoked (origin : Store) (deletion : Deletion) : Store → Store → Prop :=
  Relation.ReflTransGen (RevokeStep origin deletion)

/-- No entry comes while a call revokes, and none moves to another number. -/
theorem RevokeStep.within (step : RevokeStep origin deletion before after)
    (found : after.get? id = some entry) : before.get? id = some entry := by
  cases step with
  | cut parent aimed => exact found
  | deleted _ _ _ result =>
    rw [get?_of_deleteEntry result] at found
    split at found
    · exact nomatch found
    · exact found

theorem Revoked.within (revoked : Revoked origin deletion before after)
    (found : after.get? id = some entry) : before.get? id = some entry := by
  induction revoked with
  | refl => exact found
  | tail _ step ih => exact ih (step.within found)

/-- What is gone stays gone. -/
theorem RevokeStep.gone (step : RevokeStep origin deletion before after)
    (free : before.get? id = none) : after.get? id = none := by
  cases found : after.get? id with
  | none => rfl
  | some kept => exact nomatch free.symm.trans (step.within found)

/-- No dependency comes while a call revokes. -/
theorem RevokeStep.dependencies_subset (step : RevokeStep origin deletion before after) :
    after.dependencies ⊆ before.dependencies := by
  intro dependency member
  cases step with
  | cut parent aimed => exact (mem_dependencies_of_deleteDependency.mp member).1
  | deleted _ _ _ result => exact ((mem_dependencies_of_deleteEntry result).mp member).1

theorem Revoked.dependencies_subset (revoked : Revoked origin deletion before after) :
    after.dependencies ⊆ before.dependencies := by
  induction revoked with
  | refl => exact fun _ => id
  | tail _ step ih => exact fun _ member => ih (step.dependencies_subset member)

theorem RevokeStep.intact (step : RevokeStep origin deletion before after)
    (numbered : before.Numbered) (anchored : before.Anchored) :
    after.Numbered ∧ after.Anchored := by
  cases step with
  | cut parent aimed => exact ⟨numbered, anchored.deleteDependency⟩
  | deleted _ _ _ result => exact ⟨numbered.deleteEntry result, anchored.deleteEntry result⟩

theorem Revoked.intact (revoked : Revoked origin deletion before after)
    (numbered : before.Numbered) (anchored : before.Anchored) :
    after.Numbered ∧ after.Anchored := by
  induction revoked with
  | refl => exact ⟨numbered, anchored⟩
  | tail _ step ih => exact step.intact ih.1 ih.2

/-! ### Lawful stores -/

/-- The entries are such as the registry allows, and a dependency links entries of one identity
whose parent entry has a role that propagates. -/
structure Lawful (registry : Registry) (store : Store) : Prop where
  numbered : store.Numbered
  allowed : ∀ {entry}, store.Holds entry → ∃ type,
    registry.get? entry.object.objectClass = some type ∧ type.allows entry.role = true
  /-- Root needs no entries. -/
  notRoot : ∀ {entry}, store.Holds entry → entry.identity.isRoot = false
  linked : ∀ dependency ∈ store.dependencies, ∃ parent child,
    store.Holds parent ∧ parent.id = dependency.parent ∧
    store.Holds child ∧ child.id = dependency.child ∧
    child.identity = parent.identity ∧
    registry.isPropagatable parent.object.objectClass parent.role = true

namespace Lawful

theorem empty : Store.empty.Lawful registry where
  numbered := Intact.empty.numbered
  allowed holds := nomatch Std.ExtTreeMap.getElem?_empty.symm.trans holds
  notRoot holds := nomatch Std.ExtTreeMap.getElem?_empty.symm.trans holds
  linked _ member := nomatch member

theorem anchored (lawful : before.Lawful registry) : before.Anchored := by
  intro dependency member
  obtain ⟨parent, child, parentHeld, isParent, childHeld, isChild, -⟩ :=
    lawful.linked dependency member
  rw [← isParent, ← isChild, parentHeld, childHeld]
  exact ⟨rfl, rfl⟩

/-- What a new entry or a new dependency has to be like, for the store to stay lawful. -/
theorem createEntry {identity : Identity} {object : ObjectRef} {role : Role}
    (lawful : before.Lawful registry) (notRoot : identity.isRoot = false)
    (allows : registry.allows object.objectClass role = true)
    (result : before.createEntry identity object role = .ok (entry, after)) :
    after.Lawful registry := by
  have held {other : Entry} : after.Holds other ↔ other = entry ∨ before.Holds other :=
    lawful.numbered.holds_createEntry result
  obtain ⟨-, rfl, same⟩ := createEntry_eq_ok_iff.mp result
  refine ⟨lawful.numbered.createEntry result, fun {other} holds => ?_, fun {other} holds => ?_,
    fun dependency member => ?_⟩
  · rcases held.mp holds with rfl | earlier
    · exact (Option.any_eq_true _ _).mp allows
    · exact lawful.allowed earlier
  · rcases held.mp holds with rfl | earlier
    · exact notRoot
    · exact lawful.notRoot earlier
  · rw [same] at member
    obtain ⟨parent, child, parentHeld, isParent, childHeld, isChild, suits⟩ :=
      lawful.linked dependency member
    exact ⟨parent, child, held.mpr (.inr parentHeld), isParent, held.mpr (.inr childHeld), isChild,
      suits⟩

theorem createDependency {parent child : Entry} {kind : DependencyKind}
    (lawful : before.Lawful registry) (parentHeld : before.Holds parent)
    (childHeld : before.Holds child) (sameIdentity : child.identity = parent.identity)
    (propagates : registry.isPropagatable parent.object.objectClass parent.role = true)
    (result : before.createDependency ⟨parent.id, child.id, kind⟩ = .ok after) :
    after.Lawful registry := by
  obtain ⟨-, -, -, rfl⟩ := createDependency_eq_ok_iff.mp result
  refine ⟨lawful.numbered, lawful.allowed, lawful.notRoot, fun dependency member => ?_⟩
  rcases List.mem_append.mp member with earlier | isNew
  · exact lawful.linked dependency earlier
  · obtain rfl := List.mem_singleton.mp isNew
    exact ⟨parent, child, parentHeld, rfl, childHeld, rfl, sameIdentity, propagates⟩

/-- **A grant to somebody other than root keeps a store lawful.** -/
theorem granted (lawful : before.Lawful registry)
    (notRoot : ∀ identity, who identity → identity.isRoot = false)
    (granted : Granted registry who before after) : after.Lawful registry := by
  induction granted with
  | refl => exact lawful
  | tail _ step ih =>
    cases step with
    | stored granted allows result => exact ih.createEntry (notRoot _ granted) allows result
    | linked parentHeld childHeld _ sameIdentity propagates result =>
      exact ih.createDependency parentHeld childHeld sameIdentity propagates result

theorem revokeStep (lawful : before.Lawful registry)
    (step : RevokeStep origin deletion before after) : after.Lawful registry := by
  obtain ⟨numbered, anchored⟩ := step.intact lawful.numbered lawful.anchored
  have held {entry : Entry} (holds : after.Holds entry) : before.Holds entry := step.within holds
  -- The ends of a dependency that is left are still stored, and they are the same entries.
  have still {entry : Entry} {id : EntryId} (holds : before.Holds entry) (same : entry.id = id)
      (stored : (after.get? id).isSome = true) : after.Holds entry := by
    subst same
    obtain ⟨kept, found⟩ := Option.isSome_iff_exists.mp stored
    obtain rfl := Option.some.inj ((step.within found).symm.trans holds)
    exact found
  refine ⟨numbered, fun holds => lawful.allowed (held holds),
    fun holds => lawful.notRoot (held holds), fun dependency member => ?_⟩
  obtain ⟨parent, child, parentHeld, isParent, childHeld, isChild, suits⟩ :=
    lawful.linked dependency (step.dependencies_subset member)
  obtain ⟨parentStored, childStored⟩ := anchored dependency member
  exact ⟨parent, child, still parentHeld isParent parentStored, isParent,
    still childHeld isChild childStored, isChild, suits⟩

/-- **A deletion keeps a store lawful.** -/
theorem revoked (lawful : before.Lawful registry) (revoked : Revoked origin deletion before after) :
    after.Lawful registry := by
  induction revoked with
  | refl => exact lawful
  | tail _ step ih => exact ih.revokeStep step

end Lawful

end Store

end BookingAccess
