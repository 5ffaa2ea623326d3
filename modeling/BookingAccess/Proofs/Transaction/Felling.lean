/-
**A deletion while nothing stands in the way.**

As long as no collaborator fails and the transaction is open, the only fault that a deletion meets
is an entry that some parent holds. It stays, and the deletion goes on with the next. Each step down
has deleted an entry, so a deletion comes to its end before the depth is used up, however the
dependencies run.

* `Referenced`: an entry that some parent holds; `unhindered_leaveParents`: any other is cut off
  from its parents;
* `cascades_deleteChildren`, `fells_deleteTree`: children one after another, and then by induction
  on the depth; `fells_deleteEntry`: a whole deletion.
-/

import BookingAccess.Proofs.Store.Felling
import BookingAccess.Proofs.Transaction.Calm

namespace BookingAccess.Manager

open Service Store

variable {manager : ManagerId} {detach : Bool} {service : Service} {entry parent child : Entry}

/-- The deletion met an entry that some parent holds, and did nothing. -/
structure Referenced (entry : Entry) (fault : AccessError) (before after : Service) : Prop where
  fault : fault = .referenced entry.id
  held : before.store.HasParent entry.id
  still : Still before after

/-! ### One entry -/

/-- The dependencies of an entry on its parents are deleted in turn. -/
theorem unhindered_cutParents (free : Unhindered manager service) :
    Ensures ((service.store.dependenciesOfChild entry.id).forM fun dependency =>
        Action.ofStore (StoreClient.deleteDependency dependency.parent dependency.child)) service
      (fun _ after => Unhindered manager after ∧ after.store = service.store.cutOff entry.id)
      (fun _ _ => False) := by
  refine (Ensures.forM
    (fun later => Unhindered manager later ∧
      later.store.cutOff entry.id = service.store.cutOff entry.id ∧
      later.store.dependencies ⊆ service.store.dependencies)
    (fun dependency later => dependency ∉ later.store.dependencies)
    ⟨free, rfl, fun _ => id⟩
    fun dependency member later ⟨atLater, same, within⟩ => ?_).mono ?_ fun _ _ => id
  · refine (unhindered_deleteDependency atLater).mono ?_ fun _ _ => id
    rintro _ next ⟨cut, atNext⟩
    have isChild : dependency.child = entry.id := beq_iff_eq.mp (List.mem_filter.mp member).2
    rw [cut, isChild]
    refine ⟨⟨atNext, (cutOff_deleteDependency ..).trans same,
      fun _ kept => within (List.mem_filter.mp kept).1⟩, ?_, ?_⟩
    · intro kept
      exact (mem_dependencies_of_deleteDependency.mp kept).2 ⟨rfl, isChild⟩
    · exact fun other gone kept => gone (mem_dependencies_of_deleteDependency.mp kept).1
  · rintro _ later ⟨⟨atLater, same, within⟩, gone, -⟩
    refine ⟨atLater, (cutOff_eq ?_).symm.trans same⟩
    rintro ⟨dependency, kept, isChild⟩
    exact gone dependency (List.mem_filter.mpr ⟨within kept, beq_iff_eq.mpr isChild⟩) kept

/-- An entry is cut off from its parents, or one of them holds it. -/
theorem unhindered_leaveParents (free : Unhindered manager service) :
    Ensures (leaveParents entry detach) service
      (fun _ after => Unhindered manager after ∧ after.store = service.store.cutOff entry.id ∧
        (detach = true ∨ ¬ service.store.HasParent entry.id))
      (fun fault after => detach = false ∧ Referenced entry fault service after) := by
  unfold leaveParents
  refine (reachable_read free.reachable).followed ?_
  rintro parents middle ⟨rfl, still⟩
  have atMiddle := free.still still
  rw [← still.store]
  split
  · rename_i held
    have hasParent : middle.store.HasParent entry.id := hasParent_iff.mp held
    cases detach with
    | false =>
      exact ensures_bind.mpr (ensures_throw.mpr ⟨rfl, rfl, still.store ▸ hasParent, still⟩)
    | true =>
      exact (unhindered_cutParents atMiddle).mono
        (fun _ _ ⟨atAfter, same⟩ => ⟨atAfter, same, .inl rfl⟩) fun _ _ => False.elim
  · rename_i alone
    have orphan : ¬ middle.store.HasParent entry.id := mt hasParent_iff.mpr alone
    exact ensures_pure.mpr ⟨atMiddle, (cutOff_eq orphan).symm, .inr orphan⟩

/-! ### Children -/

section Children

variable {delete : Entry → Action DeleteOutcome} {depth : Nat}
  (deletes : ∀ (entry : Entry) (service : Service), Unhindered manager service →
    service.store.Holds entry → service.store.entryCount < depth →
    Ensures (delete entry) service
      (fun outcome after => Unhindered manager after ∧
        Fells entry false service.store outcome after.store ∧
        ¬ service.store.HasParent entry.id)
      (fun fault after => Referenced entry fault service after))
include deletes

/-- A child is deleted, or some parent holds it. -/
theorem unhindered_deleteChild (free : Unhindered manager service)
    (holds : service.store.Holds child) (deep : service.store.entryCount < depth) :
    Ensures (deleteChild delete parent child) service
      (fun outcome after => Unhindered manager after ∧
        (Fells child false service.store outcome after.store ∧
            ¬ service.store.HasParent child.id ∨
          outcome = ⟨[], [child]⟩ ∧ after.store = service.store ∧
            service.store.HasParent child.id))
      (fun _ _ => False) := by
  unfold deleteChild
  refine ensures_tryCatch.mpr ((deletes child service free holds deep).mono ?_ ?_)
  · rintro outcome after ⟨atAfter, fells⟩
    exact ⟨atAfter, .inl fells⟩
  · rintro fault after ⟨rfl, held, still⟩
    simp only [ensures_bind, ensures_record, ensures_pure]
    exact ⟨free.still (IsTrans.trans _ _ _ still (.recorded _ _)),
      .inr ⟨trivial, still.store, held⟩⟩

/-- **The dependencies on a deleted entry are followed in turn.** -/
theorem cascades_deleteChildren {dependencies : List Dependency} (free : Unhindered manager service)
    (deep : service.store.entryCount < depth) :
    Ensures (deleteChildren delete parent detach dependencies) service
      (fun outcome after => Unhindered manager after ∧
        Cascades service.store (dependencies.filter fun dependency =>
          !(dependency.kind == .detach && detach)) outcome after.store)
      (fun _ _ => False) := by
  induction dependencies generalizing service with
  | nil => exact ensures_pure.mpr ⟨free, .done _⟩
  | cons dependency dependencies ih =>
    unfold deleteChildren
    split
    · rename_i passedOver
      rw [pure_bind, List.filter_cons_of_neg (by rw [passedOver]; decide)]
      simp only [ensures_bind, ensures_pure]
      exact ih free deep
    · rename_i follows
      rw [List.filter_cons_of_pos (Bool.not_eq_true' _ ▸ Bool.not_eq_true _ ▸ follows)]
      refine (reachable_read free.reachable).followed ?_
      rintro found middle ⟨isFound, still⟩
      have atMiddle := free.still still
      rw [← still.store] at isFound deep ⊢
      split
      · simp only [pure_bind, ensures_bind, ensures_pure]
        refine (ih atMiddle deep).mono ?_ fun _ _ => id
        rintro rest after ⟨atAfter, next⟩
        exact ⟨atAfter, .gone isFound.symm next⟩
      · rename_i child
        simp only [ensures_bind, ensures_pure]
        have isChild := (atMiddle.numbered _ _ isFound.symm).1.symm
        have holds := atMiddle.numbered.holds isFound.symm
        refine (unhindered_deleteChild deletes atMiddle holds deep).mono ?_ fun _ _ => id
        rintro outcome later ⟨atLater, ⟨fells, orphan⟩ | ⟨rfl, same, held⟩⟩
        · refine (ih atLater (Nat.lt_trans fells.entryCount_lt deep)).mono ?_ fun _ _ => id
          rintro rest after ⟨atAfter, next⟩
          obtain ⟨-, result, children⟩ := fells
          rw [followed_of_orphan orphan] at children
          exact ⟨atAfter, .felled isChild holds orphan result children next⟩
        · refine (ih atLater (same ▸ deep)).mono ?_ fun _ _ => id
          rintro rest after ⟨atAfter, next⟩
          rw [same] at next
          exact ⟨atAfter, .held isChild holds held next⟩

end Children

/-! ### The whole deletion -/

/-- **A deletion goes to its end**, unless a parent holds the entry that it is aimed at. -/
theorem fells_deleteTree {depth : Nat} (free : Unhindered manager service)
    (holds : service.store.Holds entry) (deep : service.store.entryCount < depth) :
    Ensures (deleteTree depth manager detach entry) service
      (fun outcome after => Unhindered manager after ∧
        Fells entry detach service.store outcome after.store ∧
        (detach = true ∨ ¬ service.store.HasParent entry.id))
      (fun fault after => detach = false ∧ Referenced entry fault service after) := by
  induction depth generalizing detach entry service with
  | zero => exact absurd deep (Nat.not_lt_zero _)
  | succ depth ih =>
    have deletes (child : Entry) (service : Service) (free : Unhindered manager service)
        (holds : service.store.Holds child) (deep : service.store.entryCount < depth) :
        Ensures (deleteTree depth manager false child) service
          (fun outcome after => Unhindered manager after ∧
            Fells child false service.store outcome after.store ∧
            ¬ service.store.HasParent child.id)
          (fun fault after => Referenced child fault service after) :=
      (ih free holds deep).mono
        (fun _ _ ⟨atAfter, fells, orphan⟩ => ⟨atAfter, fells, orphan.resolve_left nofun⟩)
        fun _ _ => And.right
    unfold deleteTree
    refine ensures_bind.mpr ((unhindered_leaveParents free).mono ?_ fun _ _ => id)
    rintro _ alone ⟨atAlone, isCutOff, left⟩
    refine (reachable_read atAlone.reachable).followed ?_
    rintro children middle ⟨rfl, still⟩
    have aloneHolds : middle.store.Holds entry := by
      rw [still.store, isCutOff]
      exact holds
    refine (unhindered_removeEntry (atAlone.still still) aloneHolds).followed ?_
    rintro _ removed ⟨result, atRemoved⟩
    rw [still.store, isCutOff, deleteEntry_cutOff] at result
    have fewer := entryCount_deleteEntry result
    refine (cascades_deleteChildren deletes atRemoved (by omega)).followed ?_
    rintro below after ⟨atAfter, cascades⟩
    rw [isCutOff] at cascades
    exact ensures_pure.mpr ⟨atAfter, ⟨holds, result, cascades⟩, left⟩

theorem fells_deleteFrom (free : Unhindered manager service) (holds : service.store.Holds entry) :
    Ensures (deleteFrom manager detach entry) service
      (fun outcome after => Unhindered manager after ∧
        Fells entry detach service.store outcome after.store ∧
        (detach = true ∨ ¬ service.store.HasParent entry.id))
      (fun fault after => detach = false ∧ Referenced entry fault service after) := by
  unfold deleteFrom
  simp only [ensures_bind, ensures_get]
  exact fells_deleteTree free holds (Nat.lt_succ_self _)

/-- **The deletion of a stored entry.** -/
theorem fells_deleteEntry (free : Unhindered manager service) (holds : service.store.Holds entry)
    (detach : Bool) :
    Ensures (deleteEntry manager entry detach) service
      (fun outcome after => Unhindered manager after ∧
        Fells entry detach service.store outcome after.store ∧
        (detach = true ∨ ¬ service.store.HasParent entry.id))
      (fun fault after => detach = false ∧ Referenced entry fault service after) := by
  unfold deleteEntry
  refine (opened_requireTransaction free.opened).followed ?_
  rintro _ service rfl
  exact fells_deleteFrom free holds

end BookingAccess.Manager
