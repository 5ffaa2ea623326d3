/-
**Deleting several entries while nothing stands in the way.**

The entries are listed before any of them is deleted, and by its turn an entry may have gone with an
earlier one. Then it is either noted as removed or reported already, so that it is passed over; and
what is neither is still stored. So no turn fails, and none is missed.

* `ensures_isRemoved`: what is noted as removed; `Calm.deleteFrom`: one entry is deleted;
* `clears_deleteEach`: the entries have their turns; `clears_deleteEntriesForObject`: a whole call.
-/

import BookingAccess.Proofs.Store.Clearing
import BookingAccess.Proofs.Transaction.Alone
import BookingAccess.Proofs.Transaction.Felling

namespace BookingAccess.Manager

open Service Store

variable {manager : ManagerId} {origin : Store} {service : Service} {gone : EntryId → Prop}
  {outcome : DeleteOutcome} {entry : Entry} {entries : List Entry} {id : EntryId}

/-- What is noted as removed is stored no longer. -/
theorem ensures_isRemoved (calm : Calm manager service) :
    Ensures (isRemoved manager id) service
      (fun removed after => after = service ∧ (removed = true → service.store.get? id = none))
      (fun _ _ => False) := by
  unfold isRemoved currentSets
  simp only [ensures_bind, ensures_get, ensures_pure]
  refine ⟨trivial, fun removed => ?_⟩
  obtain ⟨sets, opened⟩ := Option.isSome_iff_exists.mp calm.opened
  rw [opened, Option.getD_some, Std.ExtTreeMap.contains_eq_isSome_getElem?] at removed
  obtain ⟨entry, found⟩ := Option.isSome_iff_exists.mp removed
  exact calm.removed sets opened id entry found

/-- A stored entry is deleted, detached from its parents. -/
theorem Calm.deleteFrom (calm : Calm manager service) (holds : service.store.Holds entry) :
    Ensures (deleteFrom manager true entry) service
      (fun outcome after => Calm manager after ∧
        Fells entry true service.store outcome after.store)
      (fun _ _ => False) := by
  refine calm.keeps (manages_deleteFrom true entry service) (manages_deleteFrom true entry service)
    ((fells_deleteFrom calm.unhindered holds).mono ?_ ?_)
  · exact fun _ _ felled => ⟨felled.1, felled.2.1⟩
  · exact fun _ _ failed => absurd failed.1.symm Bool.false_ne_true

/-- **The entries have their turns**, one after another. -/
theorem clears_deleteEach (calm : Calm manager service)
    (takes : Takes gone (fun _ => False) origin outcome service.store)
    (stored : ∀ entry ∈ entries, origin.Holds entry) :
    Ensures (deleteEach manager outcome entries) service
      (fun result after =>
        Takes (origin.Clears gone entries) (fun _ => False) origin result after.store)
      (fun _ _ => False) := by
  induction entries generalizing service gone outcome with
  | nil => exact ensures_pure.mpr takes
  | cons entry entries ih =>
    have holds : origin.Holds entry := stored entry (.head _)
    have stored : ∀ entry ∈ entries, origin.Holds entry := fun other listed =>
      stored other (.tail _ listed)
    rw [clears_cons]
    unfold deleteEach
    refine (ensures_isRemoved calm).followed ?_
    rintro removed _ ⟨rfl, isFree⟩
    split
    · rename_i passedOver
      have isGone : gone entry.id := by
        rcases Bool.or_eq_true_iff.mp passedOver with removed | reported
        · by_contra kept
          cases (isFree removed).symm.trans ((takes.kept _ kept).trans holds)
        · obtain ⟨other, listed, same⟩ := DeleteOutcome.hasDeleted_iff.mp reported
          exact same ▸ ((takes.reported other).mp listed).2
      exact ih calm (takes.passed isGone) stored
    · rename_i hasTurn
      have kept : ¬ gone entry.id := by
        intro isGone
        refine hasTurn (Bool.or_eq_true_iff.mpr (.inr (DeleteOutcome.hasDeleted_iff.mpr ?_)))
        exact ⟨entry, (takes.reported entry).mpr ⟨holds, isGone⟩, rfl⟩
      have stillHolds := takes.holds_iff.mpr ⟨holds, kept⟩
      refine (calm.deleteFrom stillHolds).followed ?_
      rintro below after ⟨calmAfter, fells⟩
      exact ih calmAfter (takes.turn fells calm.intact.anchored calm.intact.numbered) stored

/-- **All entries on an object have their turns**, in the order in which they are listed. -/
theorem clears_deleteEntriesForObject (calm : Calm manager service) (object : ObjectRef) :
    ∃ outcome after, (deleteEntriesForObject manager object).run.run service =
        (.ok outcome, after) ∧
      Takes (service.store.Clears (fun _ => False) (service.store.entriesOn object))
        (fun _ => False) service.store outcome after.store := by
  have deletes : Ensures (deleteEntriesForObject manager object) service
      (fun outcome after =>
        Takes (service.store.Clears (fun _ => False) (service.store.entriesOn object))
          (fun _ => False) service.store outcome after.store)
      (fun _ _ => False) := by
    unfold deleteEntriesForObject
    refine (opened_requireTransaction calm.opened).followed ?_
    rintro _ _ rfl
    refine (answered_entries object (answers_of_reachable calm.reachable _)
      calm.intact calm.added calm.removed).followed ?_
    rintro _ middle ⟨rfl, still⟩
    refine clears_deleteEach (calm.still still) (still.store ▸ .nothing _) fun entry listed => ?_
    exact (calm.intact.numbered.mem_entriesOn.mp listed).1
  obtain ⟨outcome, answered, takes⟩ := deletes.exists_answer
  exact ⟨outcome, _, Prod.ext answered rfl, takes⟩

end BookingAccess.Manager
