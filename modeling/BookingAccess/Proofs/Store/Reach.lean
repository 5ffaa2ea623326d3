/-
**How far grants and deletions reach.**

A deletion removes entries that it is aimed at and, along the dependencies on them, entries that
have lost every parent. As dependencies link entries of one identity, neither this nor the
propagation of a grant reaches entries of other identities.

* `Swept`: removed for one of the two reasons; `Revoked.swept`: whatever a deletion removes is;
* `Apart`: two stores are the same as far as other identities go; `Granted.apart`, `Revoked.apart`.
-/

import BookingAccess.Proofs.Store.Steps

namespace BookingAccess.Store

variable {registry : Registry} {who : Identity → Prop} {deletion : Deletion}
  {origin before middle after : Store} {entry other : Entry} {identity : Identity}

/-! ### What a deletion removes -/

/-- Of these two stored entries the child depends on the parent. -/
structure Links (store : Store) (dependency : Dependency) (parent child : Entry) : Prop where
  parentHeld : store.Holds parent
  childHeld : store.Holds child
  member : dependency ∈ store.dependencies
  isParent : dependency.parent = parent.id
  isChild : dependency.child = child.id

/-- The entry is gone. The deletion was aimed at it, or it came to it by a dependency on an entry
that it had removed. In that case it was either aimed at it all the same, or none of the parents
that the entry had is left. -/
inductive Swept (before after : Store) (deletion : Deletion) : Bool → Entry → Prop
  | aimed {entry : Entry} : before.Holds entry → ¬ after.Holds entry → deletion.aims entry →
      Swept before after deletion deletion.detaches entry
  | orphaned {detaches : Bool} {dependency : Dependency} {parent entry : Entry} :
      Swept before after deletion detaches parent → before.Links dependency parent entry →
      (detaches = true → dependency.kind = .cascade) → ¬ after.Holds entry →
      (¬ deletion.aims entry → ∀ link other, before.Links link other entry →
        ¬ after.Holds other) →
      Swept before after deletion false entry

theorem Anchored.links {store : Store} (anchored : store.Anchored) (numbered : store.Numbered)
    {dependency : Dependency} (member : dependency ∈ store.dependencies) :
    ∃ parent child, store.Links dependency parent child := by
  obtain ⟨parentStored, childStored⟩ := anchored dependency member
  obtain ⟨parent, parentFound⟩ := Option.isSome_iff_exists.mp parentStored
  obtain ⟨child, childFound⟩ := Option.isSome_iff_exists.mp childStored
  exact ⟨parent, child, numbered.holds parentFound, numbered.holds childFound, member,
    (numbered _ _ parentFound).1.symm, (numbered _ _ childFound).1.symm⟩

/-- A dependency that is lost has lost an end, or its child entry was cut off on purpose. -/
theorem Revoked.lost_dependency (revoked : Revoked origin deletion origin after)
    {dependency : Dependency} (member : dependency ∈ origin.dependencies)
    (lost : dependency ∉ after.dependencies) :
    after.get? dependency.parent = none ∨ after.get? dependency.child = none ∨
      deletion.AimedAt origin dependency.child := by
  induction revoked with
  | refl => exact absurd member lost
  | @tail middle after _ step ih =>
    by_cases kept : dependency ∈ middle.dependencies
    · cases step with
      | @cut parent child aimed =>
        have isCut : dependency.parent = parent ∧ dependency.child = child :=
          Classical.byContradiction fun different =>
            lost (mem_dependencies_of_deleteDependency.mpr ⟨kept, different⟩)
        exact .inr (.inr (isCut.2 ▸ aimed))
      | @deleted _ entry _ _ _ _ result =>
        have touched : dependency.parent = entry.id ∨ dependency.child = entry.id :=
          Classical.byContradiction fun apart =>
            lost ((mem_dependencies_of_deleteEntry result).mpr ⟨kept, not_or.mp apart⟩)
        refine touched.imp (fun same => ?_) fun same => .inl ?_
        · rw [get?_of_deleteEntry result, if_pos same.symm]
        · rw [get?_of_deleteEntry result, if_pos same.symm]
    · exact (ih kept).imp step.gone (Or.imp_left step.gone)

/-- An entry that a deletion is not aimed at goes only after all of its parents. -/
theorem Revoked.lost_parents (revoked : Revoked origin deletion origin after)
    (held : origin.Holds entry) (gone : ¬ after.Holds entry) (notAimed : ¬ deletion.aims entry)
    {link : Dependency} {parent : Entry} (linked : origin.Links link parent entry) :
    ¬ after.Holds parent := by
  induction revoked with
  | refl => exact absurd held gone
  | @tail middle after soFar step ih =>
    by_cases kept : middle.Holds entry
    · cases step with
      | cut => exact absurd kept gone
      | @deleted _ removed _ stored orphan _ result =>
        obtain rfl : entry = removed := Classical.byContradiction fun different =>
          gone ((holds_deleteEntry stored result).mpr ⟨kept, different⟩)
        have lost : link ∉ middle.dependencies := fun left =>
          List.filter_eq_nil_iff.mp orphan link left (beq_iff_eq.mpr linked.isChild)
        intro parentHeld
        have parentStill : middle.Holds parent :=
          ((holds_deleteEntry stored result).mp parentHeld).1
        rcases Revoked.lost_dependency soFar linked.member lost with free | free | aimed
        · exact nomatch (linked.isParent ▸ free).symm.trans parentStill
        · exact nomatch (linked.isChild ▸ free).symm.trans kept
        · exact notAimed (aimed entry held linked.isChild.symm)
    · exact fun parentHeld => ih kept (step.within parentHeld)

/-- A deletion has come to whatever it removes. -/
theorem Revoked.reached (revoked : Revoked origin deletion origin after) (held : origin.Holds entry)
    (gone : ¬ after.Holds entry) : ∃ detaches, Reached origin deletion after detaches entry.id := by
  induction revoked with
  | refl => exact absurd held gone
  | @tail middle after _ step ih =>
    have mono {detaches : Bool} (reached : Reached origin deletion middle detaches entry.id) :
        ∃ detaches, Reached origin deletion after detaches entry.id :=
      ⟨detaches, reached.mono fun _ => step.gone⟩
    by_cases kept : middle.Holds entry
    · cases step with
      | cut => exact absurd kept gone
      | @deleted _ removed _ stored _ reached result =>
        obtain rfl : entry = removed := Classical.byContradiction fun different =>
          gone ((holds_deleteEntry stored result).mpr ⟨kept, different⟩)
        exact mono reached
    · obtain ⟨detaches, reached⟩ := ih kept
      exact mono reached

/-- **Whatever a deletion removes is swept.** -/
theorem Revoked.swept (numbered : origin.Numbered) (anchored : origin.Anchored)
    (revoked : Revoked origin deletion origin after) (held : origin.Holds entry)
    (gone : ¬ after.Holds entry) : ∃ detaches, Swept origin after deletion detaches entry := by
  obtain ⟨detaches, reached⟩ := Revoked.reached revoked held gone
  refine ⟨detaches, ?_⟩
  -- Along the dependencies that the deletion has followed.
  generalize same : entry.id = id at reached
  induction reached generalizing entry with
  | aimed aimed => exact .aimed held gone (aimed entry held same)
  | @followed detaches dependency _ free member follows ih =>
    obtain ⟨parent, child, linked⟩ := anchored.links numbered member
    obtain rfl : entry = child := held.eq_of_id linked.childHeld (same.trans linked.isChild)
    have parentGone : ¬ after.Holds parent := fun stillHeld =>
      nomatch (linked.isParent ▸ free).symm.trans stillHeld
    exact .orphaned (ih linked.parentHeld parentGone linked.isParent.symm) linked follows gone
      fun notAimed _ _ => Revoked.lost_parents revoked held gone notAimed

/-! ### Other identities -/

/-- Is the number one of an entry of another identity? -/
def isApart (store : Store) (identity : Identity) (id : EntryId) : Bool :=
  (store.get? id).any fun entry => entry.identity != identity

/-- The dependencies between entries of other identities. -/
def dependenciesApart (store : Store) (identity : Identity) : List Dependency :=
  store.dependencies.filter fun dependency =>
    store.isApart identity dependency.parent && store.isApart identity dependency.child

/-- The entries of other identities are the same, and so are the dependencies between them. -/
structure Apart (identity : Identity) (before after : Store) : Prop where
  entries : ∀ id entry, entry.identity ≠ identity →
    (after.get? id = some entry ↔ before.get? id = some entry)
  dependencies : after.dependenciesApart identity = before.dependenciesApart identity

theorem isApart_iff {store : Store} {id : EntryId} : store.isApart identity id = true ↔
    ∃ entry, store.get? id = some entry ∧ entry.identity ≠ identity := by
  simp [isApart, Option.any_eq_true]

theorem isApart_of_holds {store : Store} (holds : store.Holds entry)
    (own : entry.identity = identity) : store.isApart identity entry.id = false := by
  simp [isApart, show store.get? entry.id = some entry from holds, own]

namespace Apart

protected theorem refl (store : Store) : Apart identity store store :=
  ⟨fun _ _ _ => .rfl, rfl⟩

protected theorem trans (first : Apart identity before middle)
    (second : Apart identity middle after) : Apart identity before after :=
  ⟨fun id entry different => (second.entries id entry different).trans
    (first.entries id entry different), second.dependencies.trans first.dependencies⟩

/-- Two stores with the same entries of other identities, whose dependencies agree as far as they
are between those. -/
theorem of_entries (entries : ∀ id entry, entry.identity ≠ identity →
      (after.get? id = some entry ↔ before.get? id = some entry))
    (dependencies : (after.dependencies.filter fun dependency =>
      before.isApart identity dependency.parent && before.isApart identity dependency.child) =
        before.dependenciesApart identity) : Apart identity before after := by
  have same (id : EntryId) : after.isApart identity id = before.isApart identity id := by
    rw [Bool.eq_iff_iff, isApart_iff, isApart_iff]
    exact exists_congr fun entry => and_congr_left fun different => entries id entry different
  refine ⟨entries, ?_⟩
  simp only [dependenciesApart, same]
  exact dependencies

theorem createEntry {object : ObjectRef} {role : Role} (numbered : before.Numbered)
    (result : before.createEntry identity object role = .ok (entry, after)) :
    Apart identity before after := by
  refine .of_entries (fun id other different => ?_) ?_
  · obtain ⟨-, isNew, -⟩ := createEntry_eq_ok_iff.mp result
    rw [get?_of_createEntry result]
    split
    · rename_i same
      have free : before.get? id = none := by
        rw [← same, isNew]
        exact numbered.get?_next
      rw [free]
      refine ⟨fun found => absurd ?_ different, fun never => nomatch never⟩
      rw [← Option.some.inj found, isNew]
    · exact .rfl
  · obtain ⟨-, -, rfl⟩ := createEntry_eq_ok_iff.mp result
    rfl

theorem createDependency {child : Entry} {parent : EntryId} {kind : DependencyKind}
    (childHeld : before.Holds child) (own : child.identity = identity)
    (result : before.createDependency ⟨parent, child.id, kind⟩ = .ok after) :
    Apart identity before after := by
  obtain ⟨-, -, -, rfl⟩ := createDependency_eq_ok_iff.mp result
  refine .of_entries (fun _ _ _ => .rfl) ?_
  rw [List.filter_append]
  simp [isApart_of_holds childHeld own, dependenciesApart]

theorem deleteDependency {parent child : EntryId}
    (own : ∀ entry, before.get? child = some entry → entry.identity = identity) :
    Apart identity before (before.deleteDependency parent child) := by
  refine .of_entries (fun _ _ _ => .rfl) ?_
  rw [Store.deleteDependency, List.filter_filter, dependenciesApart]
  refine List.filter_congr fun dependency _ => ?_
  cases linked : dependency.links parent child with
  | false => simp
  | true =>
    have isOwn : before.isApart identity child = false := by
      rw [Bool.eq_false_iff, ne_eq, isApart_iff]
      rintro ⟨entry, found, different⟩
      exact different (own entry found)
    simp [(dependency.links_iff _ _).mp linked, isOwn]

theorem deleteEntry (holds : before.Holds entry) (own : entry.identity = identity)
    (result : before.deleteEntry entry.id = .ok after) : Apart identity before after := by
  refine .of_entries (fun id other different => ?_) ?_
  · rw [get?_of_deleteEntry result]
    split
    · rename_i same
      refine ⟨fun never => (nomatch never), fun found => absurd ?_ different⟩
      rw [← same, holds] at found
      exact Option.some.inj found ▸ own
    · exact .rfl
  · obtain ⟨-, rfl⟩ := deleteEntry_eq_ok_iff.mp result
    rw [List.filter_filter, dependenciesApart]
    refine List.filter_congr fun dependency _ => ?_
    have isOwn := isApart_of_holds holds own
    cases touched : dependency.touches entry.id with
    | false => simp
    | true => rcases (dependency.touches_iff _).mp touched with same | same <;> simp [same, isOwn]

end Apart

/-- **A grant to one identity leaves the others alone.** -/
theorem Granted.apart (numbered : before.Numbered) (only : ∀ other, who other → other = identity)
    (granted : Granted registry who before after) : Apart identity before after := by
  suffices after.Numbered ∧ Apart identity before after from this.2
  induction granted with
  | refl => exact ⟨numbered, .refl before⟩
  | tail _ step ih =>
    obtain ⟨numbered, apart⟩ := ih
    refine ⟨step.numbered numbered, apart.trans ?_⟩
    cases step with
    | stored granted _ result =>
      obtain rfl := only _ granted
      exact .createEntry numbered result
    | linked _ childHeld granted sameIdentity _ result =>
      exact .createDependency childHeld (sameIdentity.trans (only _ granted)) result

/-- In a lawful store linked entries are of one identity. -/
theorem Lawful.sameIdentity {parent child : Entry} {dependency : Dependency}
    (lawful : before.Lawful registry) (linked : before.Links dependency parent child) :
    child.identity = parent.identity := by
  obtain ⟨parentEnd, childEnd, parentHeld, sameParent, childHeld, sameChild, sameIdentity, -⟩ :=
    lawful.linked dependency linked.member
  obtain rfl := parentHeld.eq_of_id linked.parentHeld (sameParent.trans linked.isParent)
  obtain rfl := childHeld.eq_of_id linked.childHeld (sameChild.trans linked.isChild)
  exact sameIdentity

/-- What is swept from entries of one identity is of this identity. -/
theorem Swept.sameIdentity {detaches : Bool} (lawful : before.Lawful registry)
    (own : ∀ entry, before.Holds entry → deletion.aims entry → entry.identity = identity)
    (swept : Swept before after deletion detaches entry) : entry.identity = identity := by
  induction swept with
  | aimed held _ aimed => exact own _ held aimed
  | orphaned _ linked _ _ _ ih => exact (lawful.sameIdentity linked).trans ih

/-- **A deletion that is aimed at entries of one identity leaves the others alone.** -/
theorem Revoked.apart (lawful : origin.Lawful registry)
    (own : ∀ entry, origin.Holds entry → deletion.aims entry → entry.identity = identity)
    (revoked : Revoked origin deletion origin after) : Apart identity origin after := by
  induction revoked with
  | refl => exact .refl origin
  | @tail middle after soFar step ih =>
    refine ih.trans ?_
    have revoked : Revoked origin deletion origin after := soFar.tail step
    cases step with
    | cut parent aimed =>
      refine .deleteDependency fun entry found => ?_
      have held : origin.Holds entry := lawful.numbered.holds (Revoked.within soFar found)
      exact own entry held (aimed entry held
        (lawful.numbered _ _ (Revoked.within soFar found)).1)
    | @deleted _ entry _ stored _ _ result =>
      have gone : ¬ after.Holds entry := fun holds =>
        ((holds_deleteEntry stored result).mp holds).2 rfl
      obtain ⟨_, swept⟩ := Revoked.swept lawful.numbered lawful.anchored revoked
        (Revoked.within soFar stored) gone
      exact .deleteEntry stored (swept.sameIdentity lawful own) result

end BookingAccess.Store
