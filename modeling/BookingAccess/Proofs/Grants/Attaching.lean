/-
**What attaching a child object grants.**

The grants on the parent object that are handed down are passed on to the child in the order of
their numbers. For each of them there is exactly one entry on the child afterwards, linked to it. A
link that was there already is kept as it is, and a new one can be detached. Whatever else is new
has ensued from an entry on the child that is new.

* `createEntriesForChild_endows`: what is stored and what is given back;
* `Service.unattached`: grants on an object, and a part that is attached to it later.
-/

import BookingAccess.Proofs.Grants.Deletion
import BookingAccess.Proofs.Transaction.Alone
import BookingAccess.Proofs.Transaction.Passing

namespace BookingAccess

open Service Manager Store

variable {manager : ManagerId} {start service : Service} {past : List Occurrence}

/-- **Attaching a child object passes on exactly what is handed down.** While nobody else writes to
the store, a transaction is open, no collaborator fails and the class of the child is registered,
the call succeeds. The parents are the entries on the parent object with a role that propagates and
that the class of the child has, in the order of their numbers. For each of them, in this order, the
call gives back the one entry on the child that grants the same to the same identity, whether it is
new or not. -/
theorem createEntriesForChild_endows (intact : start.store.Intact)
    (idle : start.transactions[manager]? = none)
    (run : Run (·.OthersSpareStore manager) start past service) (opened : IsOpen manager service)
    (reachable : service.outages = .none) (parent child : ObjectRef)
    (registered : (service.registry.get? child.objectClass).isSome = true) :
    ∃ parents created after,
      (createEntriesForChild manager parent child).run.run service = (.ok created, after) ∧
      (∀ entry, entry ∈ parents ↔ service.store.Holds entry ∧ entry.object = parent ∧
        service.registry.isPropagatable parent.objectClass entry.role = true ∧
        service.registry.allows child.objectClass entry.role = true) ∧
      (parents.Pairwise fun first second => first.id < second.id) ∧
      Endowed service.registry service.graph child parents created service.store after.store := by
  have calm := calm_of_run intact idle run opened reachable
  have numbered := calm.intact.numbered
  obtain ⟨childType, found⟩ := Option.isSome_iff_exists.mp registered
  obtain ⟨created, answered, passed⟩ :=
    (passes_createEntriesForChild calm parent found).exists_answer
  refine ⟨_, created, _, Prod.ext answered rfl, fun entry => ?_,
    (numbered.pairwise_entriesOn parent).filter _,
    endowed_of_passed calm.intact (fun entry listed => ?_) passed⟩
  · rw [List.mem_filter, numbered.mem_entriesOn, Registry.handsDown, Bool.and_eq_true, and_assoc]
    refine and_congr_right fun _ => and_congr_right ?_
    rintro rfl
    rfl
  · exact (numbered.mem_entriesOn.mp (List.mem_filter.mp listed).1).1

/-- The state after two users were granted a role on an object that had no parts then. It has one
now, and is a part of that one itself. -/
def Service.unattached : Service :=
  (replay [] .sampleInCircle [
    .graph ⟨[]⟩,
    .call (.manage 0 .begin),
    .call (.manage 0 (.createEntry (.user "1") .sample .reader)),
    .call (.manage 0 (.createEntry (.user "2") .sample .reader)),
    .graph Service.sampleInCircle.graph,
    .outages .none]).2

/-- The part gets both grants. Each comes back to the object, where it is stored already. -/
theorem createEntriesForChild_endows_part :
    ∃ created after, (createEntriesForChild 0 .sample .part).run.run .unattached =
        (.ok created, after) ∧
      created = [⟨3, .user "1", .part, .reader⟩, ⟨4, .user "2", .part, .reader⟩] ∧
      after.store.dependencies =
        [⟨3, 1, .cascade⟩, ⟨1, 3, .detach⟩, ⟨4, 2, .cascade⟩, ⟨2, 4, .detach⟩] ∧
      ∀ entry, Service.unattached.store.Holds entry → after.store.Holds entry := by
  have run : Run (·.OthersSpareStore 0) .sampleInCircle _ .unattached :=
    .ofEvents (by decide +kernel)
  have idle : Service.sampleInCircle.transactions[(0 : ManagerId)]? = none := by decide +kernel
  obtain ⟨parents, created, after, attaches, -, -, endowed⟩ :=
    createEntriesForChild_endows .empty idle run (by decide +kernel) rfl .sample .part
      (by decide +kernel)
  have both : let call := (createEntriesForChild 0 .sample .part).run.run Service.unattached
      call.1.toOption =
          some [⟨3, .user "1", .part, .reader⟩, ⟨4, .user "2", .part, .reader⟩] ∧
        call.2.store.dependencies =
          [⟨3, 1, .cascade⟩, ⟨1, 3, .detach⟩, ⟨4, 2, .cascade⟩, ⟨2, 4, .detach⟩] := by
    decide +kernel
  rw [attaches] at both
  exact ⟨created, after, attaches, Option.some.inj both.1, both.2, endowed.kept⟩

end BookingAccess
