/-
**How a deletion goes on.**

The dependencies on a deleted entry are followed one after another. A child that is gone already is
passed over, and one that some parent holds is retained. Any other child is deleted and followed by
its own children, before the next dependency is looked at.

* `Cascades`: how a list of dependencies is followed; `Fells`: a whole deletion;
* `Cascades.pruned`, `Fells.pruned`: what is left;
* `Fells.mem_deleted_iff`, `Fells.nodup_deleted`, `Fells.retained`: what is reported.
-/

import BookingAccess.Proofs.Store.Pruning
import BookingAccess.Transaction.Revoking

namespace BookingAccess.Store

open Manager (DeleteOutcome)

variable {before middle after removed : Store} {outcome : DeleteOutcome} {entry other : Entry}
  {dependencies : List Dependency} {detach : Bool} {id : EntryId}

/-- **These dependencies are followed**: what is reported, and the store that is left. -/
inductive Cascades : Store → List Dependency → DeleteOutcome → Store → Prop
  | done (store : Store) : Cascades store [] .empty store
  | gone {before after : Store} {dependency : Dependency} {rest : List Dependency}
      {outcome : DeleteOutcome} (free : before.get? dependency.child = none)
      (next : Cascades before rest outcome after) :
      Cascades before (dependency :: rest) outcome after
  | held {before after : Store} {dependency : Dependency} {rest : List Dependency}
      {outcome : DeleteOutcome} {child : Entry} (isChild : dependency.child = child.id)
      (holds : before.Holds child) (parented : before.HasParent child.id)
      (next : Cascades before rest outcome after) :
      Cascades before (dependency :: rest) ⟨outcome.deleted, child :: outcome.retained⟩ after
  | felled {before removed middle after : Store} {dependency : Dependency} {rest : List Dependency}
      {below outcome : DeleteOutcome} {child : Entry} (isChild : dependency.child = child.id)
      (holds : before.Holds child) (orphan : ¬ before.HasParent child.id)
      (result : before.deleteEntry child.id = .ok removed)
      (children : Cascades removed (before.dependenciesOfParent child.id) below middle)
      (next : Cascades middle rest outcome after) :
      Cascades before (dependency :: rest)
        ⟨child :: (below.deleted ++ outcome.deleted), below.retained ++ outcome.retained⟩ after

/-- The store without the dependencies of an entry on its parents. -/
def cutOff (store : Store) (id : EntryId) : Store :=
  { store with dependencies := store.dependencies.filter fun dependency => dependency.child != id }

theorem cutOff_eq (orphan : ¬ before.HasParent id) : before.cutOff id = before := by
  have all : before.dependencies.filter (fun dependency => dependency.child != id) =
      before.dependencies :=
    List.filter_eq_self.mpr fun dependency member =>
      bne_iff_ne.mpr fun isChild => orphan ⟨dependency, member, isChild⟩
  rw [cutOff, all]

theorem cutOff_deleteDependency (store : Store) (parent child : EntryId) :
    (store.deleteDependency parent child).cutOff child = store.cutOff child := by
  have same : (store.deleteDependency parent child).dependencies.filter (·.child != child) =
      store.dependencies.filter (·.child != child) := by
    unfold deleteDependency
    rw [List.filter_filter]
    refine List.filter_congr fun dependency _ => ?_
    cases isCut : dependency.links parent child with
    | false => simp
    | true => simp [((dependency.links_iff _ _).mp isCut).2]
  unfold cutOff
  rw [same]
  rfl

/-- The deletion of an entry takes these dependencies anyway. -/
theorem deleteEntry_cutOff (store : Store) (id : EntryId) :
    (store.cutOff id).deleteEntry id = store.deleteEntry id := by
  have same : (store.cutOff id).dependencies.filter (fun dependency => !dependency.touches id) =
      store.dependencies.filter fun dependency => !dependency.touches id := by
    unfold cutOff
    rw [List.filter_filter]
    refine List.filter_congr fun dependency _ => ?_
    cases isChild : dependency.child == id <;> simp [Dependency.touches, isChild, bne]
  unfold deleteEntry
  rw [same]
  rfl

/-- The child stays, as the entry was deleted with its children detached. -/
def Spares (entry : Entry) (detach : Bool) (dependency : Dependency) : Prop :=
  dependency.parent = entry.id ∧ dependency.kind = .detach ∧ detach = true

/-- The dependencies that the deletion of an entry follows. -/
def followed (store : Store) (entry : Entry) (detach : Bool) : List Dependency :=
  ((store.cutOff entry.id).dependenciesOfParent entry.id).filter fun dependency =>
    !(dependency.kind == .detach && detach)

theorem mem_followed {dependency : Dependency} :
    dependency ∈ before.followed entry detach ↔ dependency ∈ before.dependencies ∧
      dependency.parent = entry.id ∧ dependency.child ≠ entry.id ∧
      ¬ Spares entry detach dependency := by
  have passedOver : (dependency.kind == .detach && detach) = true ↔
      dependency.kind = .detach ∧ detach = true := by simp
  simp only [followed, cutOff, dependenciesOfParent, Spares, List.mem_filter, bne_iff_ne, ne_eq,
    beq_iff_eq, Bool.not_eq_true', ← Bool.not_eq_true (_ && _), passedOver]
  exact ⟨fun ⟨⟨⟨member, apart⟩, isParent⟩, follows⟩ =>
      ⟨member, isParent, apart, fun spares => follows spares.2⟩,
    fun ⟨member, isParent, apart, follows⟩ =>
      ⟨⟨⟨member, apart⟩, isParent⟩, fun same => follows ⟨isParent, same⟩⟩⟩

theorem followed_of_orphan (orphan : ¬ before.HasParent entry.id) :
    before.followed entry false = before.dependenciesOfParent entry.id := by
  simp [followed, cutOff_eq orphan]

/-- **An entry is deleted** with every dependency on it, and its children after it. -/
inductive Fells (entry : Entry) (detach : Bool) (before : Store) : DeleteOutcome → Store → Prop
  | intro {removed after : Store} {below : DeleteOutcome} (holds : before.Holds entry)
      (result : before.deleteEntry entry.id = .ok removed)
      (children : Cascades removed (before.followed entry detach) below after) :
      Fells entry detach before ⟨entry :: below.deleted, below.retained⟩ after

/-! ### What is left -/

theorem entryCount_deleteEntry {store changed : Store}
    (result : store.deleteEntry id = .ok changed) : changed.entryCount < store.entryCount := by
  obtain ⟨stored, rfl⟩ := deleteEntry_eq_ok_iff.mp result
  have listed : store.entries.contains id = true := by
    rw [Std.ExtTreeMap.contains_eq_isSome_getElem?]
    exact stored
  have filled : store.entries.size ≠ 0 := by
    intro empty
    rw [← Std.ExtTreeMap.eq_empty_iff_size_eq_zero] at empty
    rw [empty] at listed
    exact Std.ExtTreeMap.not_mem_empty (Std.ExtTreeMap.contains_iff_mem.mp listed)
  show (store.entries.erase id).size < store.entries.size
  rw [Std.ExtTreeMap.size_erase, if_pos listed]
  omega

/-- There are no more entries than before. -/
theorem Cascades.entryCount_le (cascades : Cascades before dependencies outcome after) :
    after.entryCount ≤ before.entryCount := by
  induction cascades with
  | done store => exact Nat.le_refl _
  | gone _ _ ih => exact ih
  | held _ _ _ _ ih => exact ih
  | felled _ _ _ result _ _ ihChildren ihNext =>
    have fewer := entryCount_deleteEntry result
    omega

theorem Fells.entryCount_lt (fells : Fells entry detach before outcome after) :
    after.entryCount < before.entryCount := by
  obtain ⟨_, result, children⟩ := fells
  exact Nat.lt_of_le_of_lt children.entryCount_le (entryCount_deleteEntry result)

/-- **The children are gone, or some parent holds them.** -/
theorem Cascades.pruned (cascades : Cascades before dependencies outcome after)
    (anchored : before.Anchored) : Pruned (fun _ => False) before after ∧
      ∀ dependency ∈ dependencies, after.Upheld dependency.child := by
  induction cascades with
  | done store => exact ⟨.refl anchored, fun _ never => nomatch never⟩
  | gone free _ ih =>
    obtain ⟨pruned, upheld⟩ := ih anchored
    exact ⟨pruned, List.forall_mem_cons.mpr ⟨.inl (pruned.gone free), upheld⟩⟩
  | held isChild _ parented _ ih =>
    obtain ⟨pruned, upheld⟩ := ih anchored
    refine ⟨pruned, List.forall_mem_cons.mpr ⟨?_, upheld⟩⟩
    exact pruned.stillUpheld (.inr (isChild ▸ parented))
  | @felled before removed middle after dependency rest _ _ child isChild _ _ result _ _ ihChildren
      ihNext =>
    obtain ⟨below, children⟩ := ihChildren (anchored.deleteEntry result)
    have first : Pruned (fun _ => False) before middle :=
      .ofDeletion result below fun dependency member isParent _ =>
        children dependency (List.mem_filter.mpr ⟨member, beq_iff_eq.mpr isParent⟩)
    obtain ⟨rest, upheld⟩ := ihNext first.anchored
    refine ⟨first.trans rest, List.forall_mem_cons.mpr ⟨.inl (rest.gone (below.gone ?_)), upheld⟩⟩
    rw [isChild, get?_of_deleteEntry result, if_pos rfl]

/-- **The entry is gone**, and its children are gone or some parent holds them, but for those that
were spared. -/
theorem Fells.pruned (fells : Fells entry detach before outcome after)
    (anchored : before.Anchored) :
    Pruned (Spares entry detach) before after ∧ after.get? entry.id = none := by
  obtain ⟨holds, result, children⟩ := fells
  obtain ⟨below, upheld⟩ := children.pruned (anchored.deleteEntry result)
  have gone : after.get? entry.id = none :=
    below.gone ((get?_of_deleteEntry result).trans (if_pos rfl))
  refine ⟨.ofDeletion result below fun dependency member isParent unspared => ?_, gone⟩
  by_cases isChild : dependency.child = entry.id
  · exact .inl (isChild ▸ gone)
  · exact upheld dependency (mem_followed.mpr ⟨member, isParent, isChild, unspared⟩)

/-! ### What is reported -/

/-- **What is reported as deleted** is what was stored and is gone. -/
theorem Cascades.mem_deleted_iff (cascades : Cascades before dependencies outcome after)
    (anchored : before.Anchored) :
    other ∈ outcome.deleted ↔ before.Holds other ∧ after.get? other.id = none := by
  induction cascades with
  | done store =>
    exact ⟨fun never => (nomatch never), fun ⟨holds, free⟩ => nomatch free.symm.trans holds⟩
  | gone _ _ ih => exact ih anchored
  | held _ _ _ _ ih => exact ih anchored
  | @felled before removed middle after dependency rest below outcome child isChild holds orphan
      result children next ihChildren ihNext =>
    have atRemoved := anchored.deleteEntry result
    obtain ⟨first, -⟩ := children.pruned atRemoved
    obtain ⟨second, -⟩ := next.pruned first.anchored
    have stored {kept : Entry} : removed.Holds kept ↔ before.Holds kept ∧ kept ≠ child :=
      holds_deleteEntry holds result
    rw [List.mem_cons, List.mem_append, ihChildren atRemoved, ihNext first.anchored, stored]
    constructor
    · rintro (rfl | ⟨⟨held, -⟩, free⟩ | ⟨held, free⟩)
      · refine ⟨holds, second.gone (first.gone ?_)⟩
        rw [get?_of_deleteEntry result, if_pos rfl]
      · exact ⟨held, second.gone free⟩
      · exact ⟨(stored.mp (first.within held)).1, free⟩
    · rintro ⟨held, free⟩
      by_cases isNamed : other = child
      · exact .inl isNamed
      · have atRemoved := stored.mpr ⟨held, isNamed⟩
        cases kept : middle.get? other.id with
        | none => exact .inr (.inl ⟨⟨held, isNamed⟩, rfl⟩)
        | some found => exact .inr (.inr ⟨first.holds atRemoved (by rw [kept]; rfl), free⟩)

/-- Nothing is deleted twice. -/
theorem Cascades.nodup_deleted (cascades : Cascades before dependencies outcome after)
    (anchored : before.Anchored) : outcome.deleted.Nodup := by
  induction cascades with
  | done store => exact .nil
  | gone _ _ ih => exact ih anchored
  | held _ _ _ _ ih => exact ih anchored
  | felled isChild holds orphan result children next ihChildren ihNext =>
    have atRemoved := anchored.deleteEntry result
    obtain ⟨first, -⟩ := children.pruned atRemoved
    refine List.nodup_cons.mpr ⟨fun listed => ?_, List.nodup_append.mpr
      ⟨ihChildren atRemoved, ihNext first.anchored, ?_⟩⟩
    · -- The child is gone before any of the others.
      rcases List.mem_append.mp listed with early | late
      · exact ((holds_deleteEntry holds result).mp
          ((children.mem_deleted_iff atRemoved).mp early).1).2 rfl
      · exact ((holds_deleteEntry holds result).mp
          (first.within ((next.mem_deleted_iff first.anchored).mp late).1)).2 rfl
    · rintro other early _ late rfl
      have free := ((children.mem_deleted_iff atRemoved).mp early).2
      exact nomatch free.symm.trans ((next.mem_deleted_iff first.anchored).mp late).1

/-- **What is retained** was stored. It is gone in the end, or some parent holds it. -/
theorem Cascades.retained (cascades : Cascades before dependencies outcome after)
    (anchored : before.Anchored) (listed : other ∈ outcome.retained) :
    before.Holds other ∧ after.Upheld other.id := by
  induction cascades with
  | done store => exact nomatch listed
  | gone _ _ ih => exact ih anchored listed
  | held _ holds parented next ih =>
    rcases List.mem_cons.mp listed with rfl | listed
    · exact ⟨holds, (next.pruned anchored).1.stillUpheld (.inr parented)⟩
    · exact ih anchored listed
  | felled _ holds _ result children next ihChildren ihNext =>
    have atRemoved := anchored.deleteEntry result
    obtain ⟨first, -⟩ := children.pruned atRemoved
    rcases List.mem_append.mp listed with early | late
    · obtain ⟨held, upheld⟩ := ihChildren atRemoved early
      exact ⟨((holds_deleteEntry holds result).mp held).1,
        (next.pruned first.anchored).1.stillUpheld upheld⟩
    · obtain ⟨held, upheld⟩ := ihNext first.anchored late
      exact ⟨((holds_deleteEntry holds result).mp (first.within held)).1, upheld⟩

namespace Fells

theorem mem_deleted_iff (fells : Fells entry detach before outcome after)
    (anchored : before.Anchored) :
    other ∈ outcome.deleted ↔ before.Holds other ∧ after.get? other.id = none := by
  have gone := (fells.pruned anchored).2
  obtain ⟨holds, result, children⟩ := fells
  rw [List.mem_cons, children.mem_deleted_iff (anchored.deleteEntry result),
    holds_deleteEntry holds result]
  constructor
  · rintro (rfl | ⟨⟨held, -⟩, free⟩)
    · exact ⟨holds, gone⟩
    · exact ⟨held, free⟩
  · rintro ⟨held, free⟩
    by_cases isNamed : other = entry
    · exact .inl isNamed
    · exact .inr ⟨⟨held, isNamed⟩, free⟩

theorem nodup_deleted (fells : Fells entry detach before outcome after)
    (anchored : before.Anchored) : outcome.deleted.Nodup := by
  obtain ⟨holds, result, children⟩ := fells
  have atRemoved := anchored.deleteEntry result
  refine List.nodup_cons.mpr ⟨fun listed => ?_, children.nodup_deleted atRemoved⟩
  exact ((holds_deleteEntry holds result).mp
    ((children.mem_deleted_iff atRemoved).mp listed).1).2 rfl

theorem retained (fells : Fells entry detach before outcome after) (anchored : before.Anchored)
    (listed : other ∈ outcome.retained) :
    before.Holds other ∧ other ≠ entry ∧ after.Upheld other.id := by
  obtain ⟨holds, result, children⟩ := fells
  obtain ⟨held, upheld⟩ := children.retained (anchored.deleteEntry result) listed
  obtain ⟨held, different⟩ := (holds_deleteEntry holds result).mp held
  exact ⟨held, different, upheld⟩

end Fells

end BookingAccess.Store
