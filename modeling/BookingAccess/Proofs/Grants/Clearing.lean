/-
**What the deletion of all entries on an object takes.**

The entries on the object are deleted in the order of their numbers, each detached from its parents.
The call succeeds, however they depend on each other, and leaves none of them. But whether an entry
on another object goes as well depends on that order. If some entry on the object is to take it
along and another to detach it, it goes when the second comes first. Otherwise the first finds it
held by the second, the second does not come to it, and it stays without a parent.

* `deleteEntriesForObject_clears`: what is left and what is reported;
* `deleteEntriesForObject_strands`: which entries are left without a parent;
* `Service.sampleReusing`: a reservation that is reused by the one that it is a child of;
  `reused_stranded`: the grant to read it may be left without a parent.
-/

import BookingAccess.ObjectType.Booking
import BookingAccess.Proofs.Replay
import BookingAccess.Proofs.Transaction.Clearing

namespace BookingAccess

open Service Manager Store

variable {manager : ManagerId} {start service : Service} {past : List Occurrence}

/-- **All entries on an object can be deleted at once.** While nobody else writes to the store and no
collaborator fails, the call succeeds, and no entry on the object is left. What is reported, each
once, is what was stored and is not any more. Everything else is as it was, without the dependencies
on what is gone. -/
theorem deleteEntriesForObject_clears (intact : start.store.Intact)
    (idle : start.transactions[manager]? = none)
    (run : Run (·.OthersSpareStore manager) start past service) (opened : IsOpen manager service)
    (reachable : service.outages = .none) (object : ObjectRef) :
    ∃ outcome after, (deleteEntriesForObject manager object).run.run service =
        (.ok outcome, after) ∧
      (∀ id entry, after.store.get? id = some entry → entry.object ≠ object) ∧
      (∀ entry, entry ∈ outcome.deleted ↔
        service.store.Holds entry ∧ ¬ after.store.Holds entry) ∧
      outcome.deleted.Nodup ∧
      (∀ id, after.store.get? id =
        if outcome.hasDeleted id then none else service.store.get? id) ∧
      after.store.dependencies = service.store.dependencies.filter fun dependency =>
        !(outcome.hasDeleted dependency.parent || outcome.hasDeleted dependency.child) := by
  have calm := calm_of_run intact idle run opened reachable
  have numbered := calm.intact.numbered
  obtain ⟨outcome, after, deletes, takes⟩ := clears_deleteEntriesForObject calm object
  refine ⟨outcome, after, deletes, fun id entry found onObject => ?_,
    fun _ => takes.mem_deleted_iff, takes.once, fun _ => takes.get?_eq numbered,
    takes.dependencies_eq numbered calm.intact.anchored⟩
  have kept : ¬ service.store.Clears (fun _ => False) (service.store.entriesOn object) id :=
    fun isGone => absurd (found.symm.trans (takes.gone id isGone)) (Option.some_ne_none entry)
  rw [takes.kept id kept] at found
  obtain rfl := (numbered id entry found).1
  exact kept (.of_mem (numbered.mem_entriesOn.mpr ⟨found, onObject⟩))

/-- A reservation. -/
def ObjectRef.booked : ObjectRef := ⟨.reservation, 1⟩

/-- The sample service with the types of the booking domain. -/
def Service.sampleBooking : Service := { Service.sample with registry := .booking }

/-- The state after a grant to own the reservation, with one to read it that depends on that. -/
def Service.nested : Service :=
  (replay [] .sampleBooking [
    .call (.manage 0 .begin),
    .call (.manage 0 (.createEntry (.user "1") .booked .owner)),
    .call (.manage 0 (.propagateToChild ⟨1, .user "1", .booked, .owner⟩ .booked .reader .cascade)),
    .outages .none]).2

/-- The second entry on the object goes with the first, and its turn is passed over. -/
theorem deleteEntriesForObject_clears_nested :
    ∃ outcome after, (deleteEntriesForObject 0 .booked).run.run .nested = (.ok outcome, after) ∧
      outcome.deleted = [⟨1, .user "1", .booked, .owner⟩, ⟨2, .user "1", .booked, .reader⟩] ∧
      ∀ id entry, after.store.get? id = some entry → entry.object ≠ .booked := by
  have run : Run (·.OthersSpareStore 0) .sampleBooking _ .nested := .ofEvents (by decide +kernel)
  have idle : Service.sampleBooking.transactions[0]? = none := Service.fresh_sample.idle 0
  obtain ⟨outcome, after, deletes, cleared, -⟩ :=
    deleteEntriesForObject_clears .empty idle run (by decide +kernel) rfl .booked
  have both : ((deleteEntriesForObject 0 .booked).run.run Service.nested).1.toOption.map
      (·.deleted) =
        some [⟨1, .user "1", .booked, .owner⟩, ⟨2, .user "1", .booked, .reader⟩] := by
    decide +kernel
  rw [deletes] at both
  exact ⟨outcome, after, deletes, Option.some.inj both, cleared⟩

/-! ### What is left without a parent -/

/-- **Which entries are left without a parent.** While nobody else writes to the store and no
collaborator fails, the call succeeds, and it leaves exactly those entries behind without any parent
of the ones that they had, that are on another object and lose the last of them in the turn of an
entry which is to detach them. Other parents may have gone before, and it makes no difference
whether these were to take the entry along. -/
theorem deleteEntriesForObject_strands (intact : start.store.Intact)
    (idle : start.transactions[manager]? = none)
    (run : Run (·.OthersSpareStore manager) start past service) (opened : IsOpen manager service)
    (reachable : service.outages = .none) (object : ObjectRef) :
    ∃ outcome after, (deleteEntriesForObject manager object).run.run service =
        (.ok outcome, after) ∧
      ∀ child, service.store.Holds child →
        (after.store.Holds child ∧ service.store.HasParent child.id ∧
            ¬ after.store.HasParent child.id ↔
          child.object ≠ object ∧
            service.store.Strands (service.store.entriesOn object) child.id) := by
  have calm := calm_of_run intact idle run opened reachable
  have numbered := calm.intact.numbered
  obtain ⟨outcome, after, deletes, takes⟩ := clears_deleteEntriesForObject calm object
  refine ⟨outcome, after, deletes, fun child holds => ?_⟩
  by_cases onObject : child.object = object
  · have taken := takes.holds_iff.not.mpr fun kept =>
      kept.2 (.of_mem (numbered.mem_entriesOn.mpr ⟨holds, onObject⟩))
    exact ⟨fun left => absurd left.1 taken, fun elsewhere => absurd onObject elsewhere.1⟩
  · rw [takes.stranded_iff calm.intact (fun entry listed same => ?_) holds, and_iff_right onObject]
    obtain ⟨listedHolds, listedOn⟩ := numbered.mem_entriesOn.mp listed
    exact onObject (listedHolds.eq_of_id holds same ▸ listedOn)

/-- A reservation that is reused. -/
def ObjectRef.reused : ObjectRef := ⟨.reservation, 2⟩

/-- A service with a reservation that is reused by another, whose child it is as well. -/
def Service.sampleReusing : Service := { Service.sampleBooking with
  graph := ⟨[⟨.booked, "child_reservations", .reused⟩, ⟨.booked, "reused_reservation", .reused⟩]⟩ }

/-- The state after these roles were granted on the reservation, one after another. -/
def Service.reusing (roles : List Role) : Service :=
  (replay [] .sampleReusing (.call (.manage 0 .begin) ::
    roles.map (fun role => .call (.manage 0 (.createEntry (.user "1") .booked role))) ++
    [.outages .none])).2

/-- If the role of a reader is granted first, the entry goes that is to go with the owner's, and
only the one that is to be detached is left behind. -/
theorem deleteEntriesForObject_strands_reusing :
    ∃ outcome after, (deleteEntriesForObject 0 .booked).run.run (.reusing [.reader, .owner]) =
        (.ok outcome, after) ∧
      outcome.deleted = [⟨1, .user "1", .booked, .reader⟩, ⟨3, .user "1", .booked, .owner⟩,
        ⟨2, .user "1", .reused, .reader⟩] ∧
      (Service.reusing [.reader, .owner]).store.Strands
        ((Service.reusing [.reader, .owner]).store.entriesOn .booked) 4 := by
  have run : Run (·.OthersSpareStore 0) .sampleReusing _ (.reusing [.reader, .owner]) :=
    .ofEvents (by decide +kernel)
  have idle : Service.sampleReusing.transactions[0]? = none := Service.fresh_sample.idle 0
  obtain ⟨outcome, after, deletes, stranded⟩ :=
    deleteEntriesForObject_strands .empty idle run (by decide +kernel) rfl .booked
  have before : (Service.reusing [.reader, .owner]).store.Holds ⟨4, .user "1", .reused, .owner⟩ ∧
      ⟨3, 4, .detach⟩ ∈ (Service.reusing [.reader, .owner]).store.dependencies := by decide +kernel
  refine ⟨outcome, after, deletes, ?_⟩
  have left : ((deleteEntriesForObject 0 .booked).run.run
        (Service.reusing [.reader, .owner])).1.toOption.map (·.deleted) =
          some [⟨1, .user "1", .booked, .reader⟩, ⟨3, .user "1", .booked, .owner⟩,
            ⟨2, .user "1", .reused, .reader⟩] ∧
      ((deleteEntriesForObject 0 .booked).run.run
        (Service.reusing [.reader, .owner])).2.store.get? 4 =
          some ⟨4, .user "1", .reused, .owner⟩ ∧
      ((deleteEntriesForObject 0 .booked).run.run
        (Service.reusing [.reader, .owner])).2.store.dependencies = [] := by decide +kernel
  generalize (deleteEntriesForObject 0 .booked).run.run (Service.reusing [.reader, .owner]) = result
    at deletes left
  subst deletes
  obtain ⟨deleted, stays, alone⟩ := left
  have orphan : ¬ after.store.HasParent 4 := by
    rintro ⟨dependency, member, -⟩
    rw [alone] at member
    exact nomatch member
  exact ⟨Option.some.inj deleted,
    ((stranded _ before.1).mp ⟨stays, ⟨_, before.2, rfl⟩, orphan⟩).2⟩

/-- If the role of an owner is granted first, the entry that is to go with the owner's is left
behind without a parent: the reader's holds it in the first turn, and is to detach it in the
second. -/
theorem reused_stranded : (Service.reusing [.owner, .reader]).store.Intact ∧
    IsOpen 0 (Service.reusing [.owner, .reader]) ∧
    (Service.reusing [.owner, .reader]).store.Holds ⟨1, .user "1", .booked, .owner⟩ ∧
    ⟨1, 3, .cascade⟩ ∈ (Service.reusing [.owner, .reader]).store.dependencies ∧
    ∃ outcome after, (deleteEntriesForObject 0 .booked).run.run (.reusing [.owner, .reader]) =
        (.ok outcome, after) ∧
      after.store.Holds ⟨3, .user "1", .reused, .reader⟩ ∧ ¬ after.store.HasParent 3 := by
  have before : IsOpen 0 (Service.reusing [.owner, .reader]) ∧
      (Service.reusing [.owner, .reader]).store.Holds ⟨1, .user "1", .booked, .owner⟩ ∧
      ⟨1, 3, .cascade⟩ ∈ (Service.reusing [.owner, .reader]).store.dependencies := by decide +kernel
  refine ⟨Stays.run (.replayed ..) .empty, before.1, before.2.1, before.2.2, ?_⟩
  have left : ((deleteEntriesForObject 0 .booked).run.run
        (Service.reusing [.owner, .reader])).1.toOption = some
          ⟨[⟨1, .user "1", .booked, .owner⟩, ⟨4, .user "1", .booked, .reader⟩],
            [⟨3, .user "1", .reused, .reader⟩]⟩ ∧
      ((deleteEntriesForObject 0 .booked).run.run
        (Service.reusing [.owner, .reader])).2.store.get? 3 =
          some ⟨3, .user "1", .reused, .reader⟩ ∧
      ((deleteEntriesForObject 0 .booked).run.run
        (Service.reusing [.owner, .reader])).2.store.dependencies = [] := by decide +kernel
  generalize (deleteEntriesForObject 0 .booked).run.run (Service.reusing [.owner, .reader]) = result
    at left
  obtain ⟨answer, after⟩ := result
  obtain ⟨told, stays, alone⟩ := left
  refine ⟨_, after, Prod.ext (ok_of_toOption told) rfl, stays, ?_⟩
  rintro ⟨dependency, member, -⟩
  have member : dependency ∈ after.store.dependencies := member
  rw [alone] at member
  exact nomatch member

end BookingAccess
