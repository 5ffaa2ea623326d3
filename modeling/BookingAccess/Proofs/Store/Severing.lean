/-
**What is left when dependencies are severed.**

A list of dependencies is gone through. Those that are to be cut are, one after another, and a child
that has no parent left is deleted with whatever depends on it, before the next dependency is looked
at. By then this may be gone itself.

* `Parts`: how one dependency is cut; `Severs`: how the list is gone through;
* `Severed`: what is left; `Severs.severed`: so every child is upheld whose dependency was cut;
* `Severs.mem_deleted_iff`, `Severs.nodup_deleted`: what is reported;
* `Detaches`: the entries that have to go; `Severs.takes`: exactly they do.
-/

import BookingAccess.Proofs.Store.Falling

namespace BookingAccess.Store

open Manager (DeleteOutcome)

variable {cut more : Dependency → Prop} {origin before middle after : Store}
  {outcome : DeleteOutcome} {entry other : Entry} {dependency : Dependency}
  {dependencies : List Dependency} {id : EntryId}

/-- The store without the dependencies between these ends. -/
abbrev sever (store : Store) (dependency : Dependency) : Store :=
  store.deleteDependency dependency.parent dependency.child

/-- **A dependency is cut**, and its child goes if it is stored and has no parent left: what is
reported, and the store that is left. -/
inductive Parts (before : Store) (dependency : Dependency) : DeleteOutcome → Store → Prop
  | upheld : (before.sever dependency).Upheld dependency.child →
      Parts before dependency .empty (before.sever dependency)
  | felled {child : Entry} {outcome : DeleteOutcome} {after : Store} :
      dependency.child = child.id → ¬ (before.sever dependency).HasParent child.id →
      Fells child false (before.sever dependency) outcome after →
      Parts before dependency outcome after

/-- **These dependencies are gone through** and some of them cut. One that was to be cut is only
passed over if its parent is gone. -/
inductive Severs (cut : Dependency → Prop) : Store → List Dependency → DeleteOutcome → Store → Prop
  | done (store : Store) : Severs cut store [] .empty store
  | passed {before after : Store} {dependency : Dependency} {rest : List Dependency}
      {outcome : DeleteOutcome} (uncut : cut dependency → before.get? dependency.parent = none)
      (next : Severs cut before rest outcome after) :
      Severs cut before (dependency :: rest) outcome after
  | parted {before middle after : Store} {dependency : Dependency} {rest : List Dependency}
      {below outcome : DeleteOutcome} (isCut : cut dependency)
      (parts : Parts before dependency below middle)
      (next : Severs cut middle rest outcome after) :
      Severs cut before (dependency :: rest) (below.append outcome) after

/-! ### What is left -/

open scoped Classical in
/-- Dependencies were cut, and entries are gone together with the dependencies on them. Where an
entry has lost a parent either way and is still there, it has another. -/
structure Severed (cut : Dependency → Prop) (before after : Store) : Prop where
  within : ∀ {id entry}, after.get? id = some entry → before.get? id = some entry
  dependencies : after.dependencies = before.dependencies.filter fun dependency =>
    ¬ cut dependency ∧ (after.get? dependency.parent).isSome = true ∧
      (after.get? dependency.child).isSome = true
  upheld : ∀ dependency ∈ before.dependencies,
    cut dependency ∨ after.get? dependency.parent = none → after.Upheld dependency.child

namespace Severed

theorem mem_dependencies (severed : Severed cut before after) :
    dependency ∈ after.dependencies ↔ dependency ∈ before.dependencies ∧ ¬ cut dependency ∧
      (after.get? dependency.parent).isSome = true ∧
      (after.get? dependency.child).isSome = true := by
  classical
  rw [severed.dependencies, List.mem_filter, decide_eq_true_iff]

theorem gone (severed : Severed cut before after) (free : before.get? id = none) :
    after.get? id = none := by
  cases found : after.get? id with
  | none => rfl
  | some entry => exact nomatch free.symm.trans (severed.within found)

theorem holds (severed : Severed cut before after) (held : before.Holds entry)
    (stored : (after.get? entry.id).isSome = true) : after.Holds entry := by
  obtain ⟨kept, found⟩ := Option.isSome_iff_exists.mp stored
  obtain rfl := Option.some.inj ((severed.within found).symm.trans held)
  exact found

theorem anchored (severed : Severed cut before after) : after.Anchored := fun _ member =>
  (severed.mem_dependencies.mp member).2.2

/-- What was upheld before still is. -/
theorem stillUpheld (severed : Severed cut before after) (upheld : before.Upheld id) :
    after.Upheld id := by
  rcases upheld with free | ⟨dependency, member, rfl⟩
  · exact .inl (severed.gone free)
  · by_cases lost : cut dependency ∨ after.get? dependency.parent = none
    · exact severed.upheld dependency member lost
    · obtain ⟨uncut, parentKept⟩ := not_or.mp lost
      refine (Classical.em (after.get? dependency.child = none)).imp_right fun childKept => ?_
      exact ⟨dependency, severed.mem_dependencies.mpr ⟨member, uncut,
        Option.isSome_iff_ne_none.mpr parentKept, Option.isSome_iff_ne_none.mpr childKept⟩, rfl⟩

/-- What is cut matters only among the dependencies that there are. -/
theorem congr (severed : Severed cut before after)
    (same : ∀ dependency ∈ before.dependencies, cut dependency ↔ more dependency) :
    Severed more before after where
  within := severed.within
  dependencies := by
    rw [severed.dependencies]
    exact List.filter_congr fun dependency member => by rw [same dependency member]
  upheld dependency member := by
    rw [← same dependency member]
    exact severed.upheld dependency member

theorem refl (anchored : before.Anchored) : Severed (fun _ => False) before before where
  within := id
  dependencies := by
    refine (List.filter_eq_self.mpr fun dependency member => ?_).symm
    simpa using anchored dependency member
  upheld dependency member lost := by
    have stored := (anchored dependency member).1
    rw [lost.resolve_left not_false] at stored
    exact nomatch stored

/-- First some dependencies are severed, then others. -/
theorem trans (first : Severed cut before middle) (second : Severed more middle after) :
    Severed (fun dependency => cut dependency ∨ more dependency) before after where
  within found := first.within (second.within found)
  dependencies := by
    classical
    rw [second.dependencies, first.dependencies, List.filter_filter]
    refine List.filter_congr fun dependency _ => ?_
    have still {id : EntryId} (stored : (after.get? id).isSome = true) :
        (middle.get? id).isSome = true := by
      obtain ⟨entry, found⟩ := Option.isSome_iff_exists.mp stored
      exact Option.isSome_iff_exists.mpr ⟨entry, second.within found⟩
    rw [← Bool.decide_and, decide_eq_decide, not_or]
    constructor
    · rintro ⟨⟨left, parent, child⟩, uncut, -⟩
      exact ⟨⟨uncut, left⟩, parent, child⟩
    · rintro ⟨⟨uncut, left⟩, parent, child⟩
      exact ⟨⟨left, parent, child⟩, uncut, still parent, still child⟩
  upheld dependency member lost := by
    by_cases early : cut dependency ∨ middle.get? dependency.parent = none
    · exact second.stillUpheld (first.upheld dependency member early)
    · obtain ⟨uncut, parentKept⟩ := not_or.mp early
      by_cases childKept : middle.get? dependency.child = none
      · exact .inl (second.gone childKept)
      · refine second.upheld dependency (first.mem_dependencies.mpr ⟨member, uncut,
          Option.isSome_iff_ne_none.mpr parentKept, Option.isSome_iff_ne_none.mpr childKept⟩) ?_
        exact lost.imp_left fun isCut => isCut.resolve_left uncut

/-- One dependency is cut, and what comes afterwards has upheld its child. -/
theorem ofCut (below : Pruned (fun _ => False) (before.sever dependency) after)
    (upheld : after.Upheld dependency.child) :
    Severed (fun other => other.parent = dependency.parent ∧ other.child = dependency.child)
      before after where
  within := below.within
  dependencies := by
    rw [below.dependencies]
    unfold sever deleteDependency
    rw [List.filter_filter]
    refine List.filter_congr fun other _ => ?_
    rw [← Bool.decide_coe (_ && _), decide_eq_decide]
    simp only [Bool.and_eq_true, Bool.not_eq_true', ← Bool.not_eq_true, Dependency.links_iff]
    exact and_comm
  upheld other member lost := by
    by_cases isCut : other.parent = dependency.parent ∧ other.child = dependency.child
    · exact isCut.2 ▸ upheld
    · exact below.upheld other (mem_dependencies_of_deleteDependency.mpr ⟨member, isCut⟩)
        not_false (lost.resolve_left isCut)

end Severed

/-- A dependency between the ends of one of these that is cut. -/
def Among (cut : Dependency → Prop) (dependencies : List Dependency) (dependency : Dependency) :
    Prop :=
  ∃ other ∈ dependencies, cut other ∧ dependency.parent = other.parent ∧
    dependency.child = other.child

theorem among_cons {first : Dependency} : Among cut (first :: dependencies) dependency ↔
    cut first ∧ dependency.parent = first.parent ∧ dependency.child = first.child ∨
      Among cut dependencies dependency := by
  simp only [Among, List.mem_cons, exists_eq_or_imp]

/-- What is left of a child without parents. -/
theorem Fells.upholds (fells : Fells entry false before outcome after)
    (anchored : before.Anchored) :
    Pruned (fun _ => False) before after ∧ after.Upheld entry.id := by
  obtain ⟨pruned, gone⟩ := fells.pruned anchored
  exact ⟨pruned.mono fun _ spares => (nomatch spares.2.2), .inl gone⟩

theorem Parts.severed (parts : Parts before dependency outcome after) (anchored : before.Anchored) :
    Severed (fun other => other.parent = dependency.parent ∧ other.child = dependency.child)
      before after := by
  have atSevered : (before.sever dependency).Anchored := anchored.deleteDependency
  cases parts with
  | upheld upheld => exact .ofCut (.refl atSevered) upheld
  | felled isChild _ fells =>
    obtain ⟨pruned, upheld⟩ := fells.upholds atSevered
    exact .ofCut pruned (isChild ▸ upheld)

/-- **Whatever was to be cut is cut**, and its child is upheld. -/
theorem Severs.severed (severs : Severs cut before dependencies outcome after)
    (anchored : before.Anchored) : Severed (Among cut dependencies) before after := by
  induction severs with
  | done store =>
    exact (Severed.refl anchored).congr fun _ _ =>
      ⟨False.elim, fun ⟨_, never, _⟩ => nomatch never⟩
  | @passed before after first rest _ uncut _ ih =>
    refine (ih anchored).congr fun other member => among_cons.trans (or_iff_right ?_) |>.symm
    rintro ⟨isCut, sameParent, -⟩
    have stored := (anchored other member).1
    rw [sameParent, uncut isCut] at stored
    exact nomatch stored
  | parted isCut parts _ ih =>
    have first := parts.severed anchored
    refine (first.trans (ih first.anchored)).congr fun _ _ => ?_
    exact (among_cons.trans (or_congr_left (and_iff_right isCut))).symm

/-! ### What is reported -/

theorem Parts.mem_deleted_iff (parts : Parts before dependency outcome after)
    (anchored : before.Anchored) :
    other ∈ outcome.deleted ↔ before.Holds other ∧ after.get? other.id = none := by
  cases parts with
  | upheld _ =>
    exact ⟨fun never => (nomatch never), fun ⟨held, free⟩ => nomatch free.symm.trans held⟩
  | felled _ _ fells => exact fells.mem_deleted_iff anchored.deleteDependency

theorem Parts.nodup_deleted (parts : Parts before dependency outcome after)
    (anchored : before.Anchored) : outcome.deleted.Nodup := by
  cases parts with
  | upheld _ => exact .nil
  | felled _ _ fells => exact fells.nodup_deleted anchored.deleteDependency

/-- **What is reported as deleted** is what was stored and is gone. -/
theorem Severs.mem_deleted_iff (severs : Severs cut before dependencies outcome after)
    (anchored : before.Anchored) :
    other ∈ outcome.deleted ↔ before.Holds other ∧ after.get? other.id = none := by
  induction severs with
  | done store =>
    exact ⟨fun never => (nomatch never), fun ⟨holds, free⟩ => nomatch free.symm.trans holds⟩
  | passed _ _ ih => exact ih anchored
  | @parted before middle after _ _ below outcome _ parts next ih =>
    have first := parts.severed anchored
    have second := next.severed first.anchored
    show other ∈ below.deleted ++ outcome.deleted ↔ _
    rw [List.mem_append, parts.mem_deleted_iff anchored, ih first.anchored]
    constructor
    · rintro (⟨held, free⟩ | ⟨held, free⟩)
      · exact ⟨held, second.gone free⟩
      · exact ⟨first.within held, free⟩
    · rintro ⟨held, free⟩
      cases kept : middle.get? other.id with
      | none => exact .inl ⟨held, rfl⟩
      | some found => exact .inr ⟨first.holds held (kept ▸ rfl), free⟩

/-- Nothing is deleted twice. -/
theorem Severs.nodup_deleted (severs : Severs cut before dependencies outcome after)
    (anchored : before.Anchored) : outcome.deleted.Nodup := by
  induction severs with
  | done store => exact .nil
  | passed _ _ ih => exact ih anchored
  | parted _ parts next ih =>
    have first := parts.severed anchored
    refine List.nodup_append.mpr ⟨parts.nodup_deleted anchored, ih first.anchored, ?_⟩
    rintro gone early _ late rfl
    have free := ((parts.mem_deleted_iff anchored).mp early).2
    exact nomatch free.symm.trans ((next.mem_deleted_iff first.anchored).mp late).1

/-! ### What has to go -/

/-- **What goes when these dependencies are cut**: the least set of entries that have a parent, but
only by dependencies that are cut and from entries in the set. -/
def Detaches (store : Store) (cut : Dependency → Prop) : EntryId → Prop :=
  Falls store (fun _ => False) cut (fun _ => False)

/-- At first nothing is lost. -/
theorem Bereft.start : Bereft origin (fun _ => False) cut (fun _ => False) origin where
  left _ member := ⟨member, not_false⟩
  lost _ member _ _ := .inl member

/-- What is cut is not missed. -/
theorem Bereft.sever {aimed : EntryId → Prop} {spared : Dependency → Prop}
    (bereft : Bereft origin aimed cut spared before)
    (cuts : ∀ other, other.parent = dependency.parent → other.child = dependency.child →
      cut other) :
    Bereft origin aimed cut spared (before.sever dependency) where
  left other member := bereft.left other (mem_dependencies_of_deleteDependency.mp member).1
  lost other member stored uncut := by
    refine (bereft.lost other member stored uncut).imp_left fun kept => ?_
    exact mem_dependencies_of_deleteDependency.mpr
      ⟨kept, fun ⟨sameParent, sameChild⟩ => uncut (cuts other sameParent sameChild)⟩

/-- What goes with one dependency that is cut has to go. -/
theorem Parts.detaches (parts : Parts before dependency outcome after)
    (bereft : Bereft origin (fun _ => False) cut (fun _ => False) before)
    (cuts : ∀ other, other.parent = dependency.parent → other.child = dependency.child → cut other)
    (within : dependency ∈ origin.dependencies) :
    (∀ other ∈ outcome.deleted, origin.Detaches cut other.id) ∧
      Bereft origin (fun _ => False) cut (fun _ => False) after := by
  have atSevered := bereft.sever cuts
  cases parts with
  | upheld _ => exact ⟨fun _ never => (nomatch never), atSevered⟩
  | felled isChild orphan fells =>
    obtain ⟨holds, -⟩ := id fells
    exact fells.falls atSevered
      (atSevered.falls holds orphan ⟨dependency, within, isChild, not_false⟩)

/-- **Nothing goes but what has to.** -/
theorem Severs.detaches (severs : Severs cut before dependencies outcome after)
    (bereft : Bereft origin (fun _ => False) cut (fun _ => False) before)
    (ends : ∀ {dependency other : Dependency}, other.parent = dependency.parent →
      other.child = dependency.child → cut dependency → cut other)
    (within : ∀ dependency ∈ dependencies, dependency ∈ origin.dependencies) :
    (∀ other ∈ outcome.deleted, origin.Detaches cut other.id) ∧
      Bereft origin (fun _ => False) cut (fun _ => False) after := by
  induction severs with
  | done store => exact ⟨fun _ never => (nomatch never), bereft⟩
  | passed _ _ ih => exact ih bereft fun _ member => within _ (.tail _ member)
  | parted isCut parts _ ih =>
    obtain ⟨early, atMiddle⟩ := parts.detaches bereft
      (fun _ sameParent sameChild => ends sameParent sameChild isCut) (within _ (.head _))
    obtain ⟨late, atAfter⟩ := ih atMiddle fun _ member => within _ (.tail _ member)
    exact ⟨fun other listed => (List.mem_append.mp listed).elim (early other) (late other), atAfter⟩

/-- **Exactly what has to go is taken**, if all that is to be cut is listed. -/
theorem Severs.takes (severs : Severs cut origin dependencies outcome after)
    (anchored : origin.Anchored) (numbered : origin.Numbered)
    (ends : ∀ {dependency other : Dependency}, other.parent = dependency.parent →
      other.child = dependency.child → cut dependency → cut other)
    (within : ∀ dependency ∈ dependencies, dependency ∈ origin.dependencies)
    (listed : ∀ dependency ∈ origin.dependencies, cut dependency → dependency ∈ dependencies) :
    Takes (origin.Detaches cut) cut origin outcome after := by
  have severed : Severed cut origin after := by
    refine (severs.severed anchored).congr fun dependency member => ⟨?_, fun isCut => ?_⟩
    · rintro ⟨other, -, isCut, sameParent, sameChild⟩
      exact ends sameParent sameChild isCut
    · exact ⟨dependency, listed dependency member isCut, isCut, rfl, rfl⟩
  refine .ofGone anchored numbered severed.within severed.dependencies (fun entry holds => ⟨?_, ?_⟩)
    (fun _ => severs.mem_deleted_iff anchored) (severs.nodup_deleted anchored)
  · intro free
    exact (severs.detaches .start ends within).1 entry
      ((severs.mem_deleted_iff anchored).mpr ⟨holds, free⟩)
  · refine Falls.gone (fun _ => False.elim)
      (fun dependency member _ => severed.upheld dependency member) fun dependency member => ?_
    · obtain ⟨earlier, uncut, parentStored, -⟩ := severed.mem_dependencies.mp member
      exact ⟨earlier, uncut, parentStored⟩

end BookingAccess.Store
