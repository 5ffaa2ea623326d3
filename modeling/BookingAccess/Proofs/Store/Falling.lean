/-
**Which entries a deletion takes.**

It takes the entries that it is aimed at and, again and again, those that have lost every parent: by
having the dependency on it cut, or along with it. This is the least set of its kind, so it does not
depend on the order in which the entries were taken.

* `Falls`: the set; `GoesWith`: the set of a single entry;
* `Falls.gone`: all of it is gone, if in the end every child is upheld that lost a parent;
* `Bereft`: in the course of the deletion, what an entry has lost are parents in the set;
  `Cascades.falls`, `Fells.falls`: so all that is deleted is in the set;
* `Takes`: exactly the set was taken; `Takes.reordered`: in whatever order; `Fells.takes`: it was.
-/

import BookingAccess.Proofs.Store.Felling

namespace BookingAccess.Store

open Manager (DeleteOutcome)

variable {aimed : EntryId → Prop} {cut spared : Dependency → Prop}
  {origin before middle after removed : Store} {outcome : DeleteOutcome} {entry other : Entry}
  {dependencies : List Dependency} {detach : Bool} {id : EntryId}

/-- **The least set that a deletion has to take**: what it is aimed at, and every entry that it
comes to by a dependency that was not spared, if each dependency on a parent was cut or the parent
is in the set. -/
inductive Falls (origin : Store) (aimed : EntryId → Prop) (cut spared : Dependency → Prop) :
    EntryId → Prop
  | aimed {id : EntryId} : aimed id → Falls origin aimed cut spared id
  | orphaned {id : EntryId} :
      (∃ dependency ∈ origin.dependencies, dependency.child = id ∧ ¬ spared dependency) →
      (∀ dependency ∈ origin.dependencies, dependency.child = id → ¬ cut dependency →
        Falls origin aimed cut spared dependency.parent) →
      Falls origin aimed cut spared id

/-- What goes with an entry. -/
def GoesWith (store : Store) (entry : Entry) (detach : Bool) : EntryId → Prop :=
  Falls store (· = entry.id) (fun _ => False) (Spares entry detach)

/-- The set depends on which dependencies there are, not on their order. -/
theorem Falls.congr (same : ∀ dependency, dependency ∈ before.dependencies ↔
      dependency ∈ origin.dependencies) (falls : Falls origin aimed cut spared id) :
    Falls before aimed cut spared id := by
  induction falls with
  | aimed isAimed => exact .aimed isAimed
  | orphaned followed _ ih =>
    obtain ⟨dependency, member, follows⟩ := followed
    exact .orphaned ⟨dependency, (same dependency).mpr member, follows⟩
      fun other member => ih other ((same other).mp member)

/-- **All of the set is gone.** -/
theorem Falls.gone (isAimed : ∀ id, aimed id → after.get? id = none)
    (upheld : ∀ dependency ∈ origin.dependencies, ¬ spared dependency →
      cut dependency ∨ after.get? dependency.parent = none → after.Upheld dependency.child)
    (kept : ∀ dependency ∈ after.dependencies, dependency ∈ origin.dependencies ∧
      ¬ cut dependency ∧ (after.get? dependency.parent).isSome = true)
    (falls : Falls origin aimed cut spared id) : after.get? id = none := by
  induction falls with
  | aimed isNamed => exact isAimed _ isNamed
  | orphaned followed _ ih =>
    obtain ⟨dependency, member, rfl, unspared⟩ := followed
    have lost : cut dependency ∨ after.get? dependency.parent = none :=
      (Classical.em (cut dependency)).imp_right (ih dependency member rfl)
    refine (upheld dependency member unspared lost).resolve_right ?_
    rintro ⟨other, left, sameChild⟩
    obtain ⟨member, uncut, stored⟩ := kept other left
    rw [ih other member sameChild uncut] at stored
    exact nomatch stored

/-! ### Nothing else is taken -/

/-- What a stored entry has lost of its dependencies on parents was cut, or went with a parent in
the set. What is left of the spared dependencies leads nowhere. -/
structure Bereft (origin : Store) (aimed : EntryId → Prop) (cut spared : Dependency → Prop)
    (store : Store) : Prop where
  left : ∀ dependency ∈ store.dependencies, dependency ∈ origin.dependencies ∧ ¬ spared dependency
  lost : ∀ dependency ∈ origin.dependencies, (store.get? dependency.child).isSome = true →
    ¬ cut dependency →
      dependency ∈ store.dependencies ∨ Falls origin aimed cut spared dependency.parent

namespace Bereft

/-- A stored entry without parents is in the set, if the deletion has come to it. -/
theorem falls (bereft : Bereft origin aimed cut spared before) (holds : before.Holds entry)
    (orphan : ¬ before.HasParent entry.id)
    (followed : ∃ dependency ∈ origin.dependencies,
      dependency.child = entry.id ∧ ¬ spared dependency) :
    Falls origin aimed cut spared entry.id := by
  refine .orphaned followed fun dependency member isChild uncut => ?_
  have stored : (before.get? dependency.child).isSome = true := by
    rw [isChild, show before.get? entry.id = some entry from holds]
    rfl
  exact (bereft.lost dependency member stored uncut).resolve_left fun kept =>
    orphan ⟨dependency, kept, isChild⟩

/-- An entry of the set is deleted. -/
theorem deleteEntry (bereft : Bereft origin aimed cut spared before)
    (falls : Falls origin aimed cut spared id) (result : before.deleteEntry id = .ok after) :
    Bereft origin aimed cut spared after where
  left dependency member :=
    bereft.left dependency ((mem_dependencies_of_deleteEntry result).mp member).1
  lost dependency member stored uncut := by
    rw [get?_of_deleteEntry result] at stored
    split at stored
    · exact nomatch stored
    · rename_i notChild
      by_cases isParent : dependency.parent = id
      · exact .inr (isParent ▸ falls)
      · refine (bereft.lost dependency member stored uncut).imp_left fun kept => ?_
        exact (mem_dependencies_of_deleteEntry result).mpr ⟨kept, isParent, Ne.symm notChild⟩

end Bereft

/-- **All that is deleted is in the set.** -/
theorem Cascades.falls (cascades : Cascades before dependencies outcome after)
    (bereft : Bereft origin aimed cut spared before)
    (within : ∀ dependency ∈ dependencies,
      dependency ∈ origin.dependencies ∧ ¬ spared dependency) :
    (∀ other ∈ outcome.deleted, Falls origin aimed cut spared other.id) ∧
      Bereft origin aimed cut spared after := by
  induction cascades with
  | done store => exact ⟨fun _ never => (nomatch never), bereft⟩
  | gone _ _ ih => exact ih bereft fun other member => within other (.tail _ member)
  | held _ _ _ _ ih => exact ih bereft fun other member => within other (.tail _ member)
  | @felled before removed middle after dependency rest below outcome child isChild holds orphan
      result _ _ ihChildren ihNext =>
    obtain ⟨member, unspared⟩ := within dependency (.head _)
    have falls := bereft.falls holds orphan ⟨dependency, member, isChild, unspared⟩
    obtain ⟨children, atMiddle⟩ := ihChildren (bereft.deleteEntry falls result)
      fun other listed => bereft.left other (List.mem_filter.mp listed).1
    obtain ⟨rest, atAfter⟩ := ihNext atMiddle fun other member => within other (.tail _ member)
    refine ⟨List.forall_mem_cons.mpr ⟨falls, fun other listed => ?_⟩, atAfter⟩
    exact (List.mem_append.mp listed).elim (children other) (rest other)

/-- The deletion of an entry that is in the set itself goes on with the set. -/
theorem Fells.falls (fells : Fells entry detach before outcome after)
    (bereft : Bereft origin aimed cut spared before)
    (isRoot : Falls origin aimed cut spared entry.id) :
    (∀ other ∈ outcome.deleted, Falls origin aimed cut spared other.id) ∧
      Bereft origin aimed cut spared after := by
  obtain ⟨_, result, children⟩ := fells
  obtain ⟨below, atAfter⟩ := children.falls (bereft.deleteEntry isRoot result)
    fun dependency listed => bereft.left dependency (mem_followed.mp listed).1
  exact ⟨List.forall_mem_cons.mpr ⟨isRoot, below⟩, atAfter⟩

/-- Once the entry is gone that the deletion is aimed at, with the dependencies that were spared. -/
theorem Bereft.ofRoot (result : before.deleteEntry entry.id = .ok removed) :
    Bereft before (· = entry.id) cut (Spares entry detach) removed where
  left dependency member := by
    obtain ⟨earlier, notParent, -⟩ := (mem_dependencies_of_deleteEntry result).mp member
    exact ⟨earlier, fun spares => notParent spares.1⟩
  lost dependency member stored _ := by
    by_cases isParent : dependency.parent = entry.id
    · exact .inr (.aimed isParent)
    · refine .inl ((mem_dependencies_of_deleteEntry result).mpr
        ⟨member, isParent, fun isChild => ?_⟩)
      rw [get?_of_deleteEntry result, if_pos isChild.symm] at stored
      exact nomatch stored

/-- **An entry is gone exactly if it goes with the one that was deleted.** -/
theorem Fells.gone_iff (fells : Fells entry detach before outcome after)
    (anchored : before.Anchored) (stored : before.Holds other) :
    after.get? other.id = none ↔ before.GoesWith entry detach other.id := by
  obtain ⟨pruned, gone⟩ := fells.pruned anchored
  constructor
  · intro free
    have listed := (fells.mem_deleted_iff anchored).mpr ⟨stored, free⟩
    obtain ⟨_, result, children⟩ := fells
    obtain ⟨below, -⟩ := children.falls (.ofRoot result) fun dependency listed =>
      ⟨(mem_followed.mp listed).1, (mem_followed.mp listed).2.2.2⟩
    rcases List.mem_cons.mp listed with rfl | listed
    · exact .aimed rfl
    · exact below other listed
  · refine Falls.gone (fun id same => same ▸ gone) (fun dependency member unspared lost => ?_)
      fun dependency member => ?_
    · exact pruned.upheld dependency member unspared (lost.resolve_left not_false)
    · obtain ⟨earlier, parentStored, -⟩ := pruned.mem_dependencies.mp member
      exact ⟨earlier, not_false, parentStored⟩

/-! ### What is taken -/

open scoped Classical in
/-- **The entries of the set are gone** with the dependencies on them, and exactly they are
reported. All else is as it was, but for the dependencies that were cut. -/
structure Takes (falls : EntryId → Prop) (cut : Dependency → Prop) (before : Store)
    (outcome : DeleteOutcome) (after : Store) : Prop where
  gone : ∀ id, falls id → after.get? id = none
  kept : ∀ id, ¬ falls id → after.get? id = before.get? id
  dependencies : after.dependencies = before.dependencies.filter fun dependency =>
    ¬ cut dependency ∧ ¬ falls dependency.parent ∧ ¬ falls dependency.child
  reported : ∀ entry, entry ∈ outcome.deleted ↔ before.Holds entry ∧ falls entry.id
  once : outcome.deleted.Nodup

/-- The order of the dependencies makes no difference to what is left and what is reported. -/
theorem Takes.reordered {falls : EntryId → Prop} {reordered reorderedAfter : Store}
    {reorderedOutcome : DeleteOutcome} (takes : Takes falls cut before outcome after)
    (alike : Takes falls cut reordered reorderedOutcome reorderedAfter)
    (entries : reordered.entries = before.entries)
    (order : reordered.dependencies.Perm before.dependencies) :
    reorderedAfter.entries = after.entries ∧
      reorderedAfter.dependencies.Perm after.dependencies ∧
      reorderedOutcome.deleted.Perm outcome.deleted := by
  refine ⟨Std.ExtTreeMap.ext_getElem? fun id => ?_, ?_, ?_⟩
  · show reorderedAfter.get? id = after.get? id
    by_cases taken : falls id
    · rw [takes.gone id taken, alike.gone id taken]
    · rw [takes.kept id taken, alike.kept id taken]
      exact congrArg (·[id]?) entries
  · rw [takes.dependencies, alike.dependencies]
    exact order.filter _
  · refine (List.perm_ext_iff_of_nodup alike.once takes.once).mpr fun entry => ?_
    rw [takes.reported, alike.reported, holds_congr entries]

open scoped Classical in
/-- It is enough to know which stored entries are gone. -/
theorem Takes.ofGone {falls : EntryId → Prop} (anchored : before.Anchored)
    (numbered : before.Numbered)
    (within : ∀ {id entry}, after.get? id = some entry → before.get? id = some entry)
    (dependencies : after.dependencies = before.dependencies.filter fun dependency =>
      ¬ cut dependency ∧ (after.get? dependency.parent).isSome = true ∧
        (after.get? dependency.child).isSome = true)
    (gone_iff : ∀ entry, before.Holds entry → (after.get? entry.id = none ↔ falls entry.id))
    (reported : ∀ entry, entry ∈ outcome.deleted ↔
      before.Holds entry ∧ after.get? entry.id = none)
    (once : outcome.deleted.Nodup) : Takes falls cut before outcome after := by
  have gone {id : EntryId} (stored : (before.get? id).isSome = true) :
      after.get? id = none ↔ falls id := by
    obtain ⟨found, isFound⟩ := Option.isSome_iff_exists.mp stored
    obtain rfl := (numbered id found isFound).1
    exact gone_iff found isFound
  have stillFree {id : EntryId} (absent : ¬ (before.get? id).isSome = true) :
      before.get? id = none ∧ after.get? id = none := by
    have free := Option.not_isSome_iff_eq_none.mp absent
    refine ⟨free, Option.eq_none_iff_forall_ne_some.mpr fun entry found => ?_⟩
    exact nomatch free.symm.trans (within found)
  refine ⟨fun id taken => ?_, fun id spared => ?_, ?_, fun other => ?_, once⟩
  · by_cases stored : (before.get? id).isSome = true
    · exact (gone stored).mpr taken
    · exact (stillFree stored).2
  · by_cases stored : (before.get? id).isSome = true
    · obtain ⟨kept, found⟩ := Option.isSome_iff_exists.mp
        (Option.isSome_iff_ne_none.mpr (mt (gone stored).mp spared))
      rw [found, within found]
    · rw [(stillFree stored).1, (stillFree stored).2]
  · rw [dependencies]
    refine List.filter_congr fun dependency member => ?_
    obtain ⟨parentStored, childStored⟩ := anchored dependency member
    rw [decide_eq_decide, ← gone parentStored, ← gone childStored, ← ne_eq, ← ne_eq,
      ← Option.isSome_iff_ne_none, ← Option.isSome_iff_ne_none]
  · rw [reported]
    exact and_congr_right (gone_iff other)

/-- **A deletion takes what goes with the entry**, in whatever order the dependencies are
followed. -/
theorem Fells.takes (fells : Fells entry detach before outcome after) (anchored : before.Anchored)
    (numbered : before.Numbered) :
    Takes (before.GoesWith entry detach) (fun _ => False) before outcome after := by
  obtain ⟨pruned, -⟩ := fells.pruned anchored
  refine .ofGone anchored numbered pruned.within ?_ (fun _ => fells.gone_iff anchored)
    (fun _ => fells.mem_deleted_iff anchored) (fells.nodup_deleted anchored)
  rw [pruned.dependencies]
  exact List.filter_congr fun dependency _ => by simp

end BookingAccess.Store
