/-
**What detaching a child object takes.**

The dependencies from entries on the parent object to entries on the child object are cut, and what
has no parent left goes, with whatever depends on it. It is the least set of entries that have a
parent and have lost every one, so neither the order of the dependencies matters nor that some of
them are gone before they are looked at.

* `Store.Attaches`: the dependencies that are cut; `deleteEntriesForChild_takes`: what is taken.
-/

import BookingAccess.Proofs.Grants.Deletion
import BookingAccess.Proofs.Transaction.Severing

namespace BookingAccess

open Service Manager Store

variable {manager : ManagerId} {start service : Service} {past : List Occurrence} {store : Store}
  {parent child : ObjectRef} {dependency other : Dependency}

namespace Store

/-- The dependency leads from an entry on the parent object to one on the child object. -/
def Attaches (store : Store) (parent child : ObjectRef) (dependency : Dependency) : Prop :=
  (∃ holder, store.get? dependency.parent = some holder ∧ holder.object = parent) ∧
    ∃ held, store.get? dependency.child = some held ∧ held.object = child

/-- It depends on the ends alone whether it does. -/
theorem Attaches.ofEnds (sameParent : other.parent = dependency.parent)
    (sameChild : other.child = dependency.child)
    (attaches : store.Attaches parent child dependency) : store.Attaches parent child other := by
  unfold Attaches
  rwa [sameParent, sameChild]

theorem mem_dependenciesInto : dependency ∈ store.dependenciesInto child ↔
    dependency ∈ store.dependencies ∧
      ∃ held, store.get? dependency.child = some held ∧ held.object = child := by
  unfold dependenciesInto
  simp only [List.mem_filter, Option.any_eq_true, beq_iff_eq]

/-- Among the dependencies into the child object it is the parent entry that decides. -/
theorem Anchored.attaches_iff (anchored : store.Anchored)
    (listed : dependency ∈ store.dependenciesInto child) :
    ∃ holder, store.get? dependency.parent = some holder ∧
      (store.Attaches parent child dependency ↔ holder.object = parent) := by
  obtain ⟨member, held⟩ := mem_dependenciesInto.mp listed
  obtain ⟨holder, found⟩ := Option.isSome_iff_exists.mp (anchored dependency member).1
  refine ⟨holder, found, ?_, fun onParent => ⟨⟨holder, found, onParent⟩, held⟩⟩
  rintro ⟨⟨same, alsoFound, onParent⟩, -⟩
  obtain rfl := Option.some.inj (found.symm.trans alsoFound)
  exact onParent

end Store

/-- **Detaching a child object takes exactly what has lost every parent by it.** While nobody else
writes to the store and no collaborator fails, the call succeeds. The dependencies from the parent
object to the child object are cut. Gone are, with the dependencies on them, the entries of the
least set of those that have a parent, but only by dependencies that are cut or from entries in the
set. Exactly they are reported, each once, and all else is as it was. -/
theorem deleteEntriesForChild_takes (fresh : start.Fresh) (intact : start.store.Intact)
    (run : Run (·.OthersSpareStore manager) start past service) (opened : IsOpen manager service)
    (reachable : service.outages = .none) (parent child : ObjectRef) :
    ∃ outcome after, (deleteEntriesForChild manager parent child).run.run service =
        (.ok outcome, after) ∧
      Takes (service.store.Detaches (service.store.Attaches parent child))
        (service.store.Attaches parent child) service.store outcome after.store := by
  have calm := calm_of_run intact (fresh.idle manager) run opened reachable
  have mindful := mindful_of_run fresh run
  have numbered := calm.intact.numbered
  have anchored := calm.intact.anchored
  have deletes : Ensures (deleteEntriesForChild manager parent child) service
      (fun outcome after => Severs (service.store.Attaches parent child) service.store
        (service.store.dependenciesInto child) outcome after.store)
      (fun _ _ => False) := by
    unfold deleteEntriesForChild
    refine ensures_bind.mpr ((opened_requireTransaction opened).mono ?_ fun _ _ => False.elim)
    rintro _ _ rfl
    refine ensures_bind.mpr ((reachable_read reachable).mono ?_ fun _ _ => False.elim)
    rintro _ middle ⟨rfl, still⟩
    refine (severs_deleteAttachments mindful (fun _ listed => anchored.attaches_iff listed)
      ((Underway.start calm).still still)).mono ?_ fun _ _ => False.elim
    exact fun _ _ severs => still.store ▸ severs
  rcases result : (deleteEntriesForChild manager parent child).run.run service with
    ⟨fault | outcome, after⟩
  · exact (deletes.of_error result).elim
  · refine ⟨outcome, after, rfl, (deletes.of_ok result).takes anchored numbered Attaches.ofEnds
      (fun _ member => (mem_dependenciesInto.mp member).1) fun dependency member attaches => ?_⟩
    exact mem_dependenciesInto.mpr ⟨member, attaches.2⟩

/-- The entry on the part loses its only parent, and the one on the object goes with it. By then the
dependency on the part is gone that it had. -/
theorem deleteEntriesForChild_takes_circle :
    ∃ outcome after, (deleteEntriesForChild 0 .sample .part).run.run .circle =
        (.ok outcome, after) ∧
      outcome.deleted = [⟨2, .user "1", .part, .reader⟩, ⟨1, .user "1", .sample, .reader⟩] ∧
      Service.circle.store.Detaches (Service.circle.store.Attaches .sample .part) 1 := by
  have fresh : Service.sampleInCircle.Fresh :=
    ⟨rfl, Service.fresh_sample.idle, Service.fresh_sample.numbered⟩
  have run : Run (·.OthersSpareStore 0) .sampleInCircle _ .circle := .ofEvents (by decide +kernel)
  obtain ⟨outcome, after, deletes, taken⟩ := deleteEntriesForChild_takes fresh .empty run
    Service.unhindered_circle.opened rfl .sample .part
  have both : ((deleteEntriesForChild 0 .sample .part).run.run Service.circle).1.toOption.map
      (·.deleted) =
        some [⟨2, .user "1", .part, .reader⟩, ⟨1, .user "1", .sample, .reader⟩] := by
    decide +kernel
  rw [deletes] at both
  have deleted : outcome.deleted = _ := Option.some.inj both
  have listed : ⟨1, .user "1", .sample, .reader⟩ ∈ outcome.deleted := by simp [deleted]
  exact ⟨outcome, after, deletes, deleted, ((taken.reported _).mp listed).2⟩

end BookingAccess
