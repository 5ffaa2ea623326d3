/-
**What the deletion of an entry takes.**

An entry that some parent holds is only deleted when it is detached. Then, or if it has no parent,
the deletion succeeds and takes with it the least set of entries that lose every parent along with
it. Neither cycles nor the order of the dependencies make a difference.

* `deleteEntry_takes`: both cases;
* `Service.sampleInCircle`: two entries that uphold each other.
-/

import BookingAccess.Proofs.Replay
import BookingAccess.Proofs.Store.Falling
import BookingAccess.Proofs.Transaction.Felling

namespace BookingAccess

open Service Manager Store

variable {manager : ManagerId} {service : Service} {entry : Entry} {detach : Bool}

/-! ### The order of the dependencies -/

/-- The service, with the dependencies of its store in another order. -/
def Service.reorder (service : Service) (dependencies : List Dependency) : Service :=
  { service with store := { service.store with dependencies := dependencies } }

theorem holds_reorder (holds : service.store.Holds entry) (dependencies : List Dependency) :
    (service.reorder dependencies).store.Holds entry := holds

section Reorder

variable {dependencies : List Dependency}
  (order : dependencies.Perm service.store.dependencies)
include order

theorem hasParent_reorder {id : EntryId} :
    (service.reorder dependencies).store.HasParent id ↔ service.store.HasParent id :=
  exists_congr fun _ => and_congr_left fun _ => order.mem_iff

/-- What goes with an entry does not depend on the order. -/
theorem goesWith_reorder : (service.reorder dependencies).store.GoesWith entry detach =
    service.store.GoesWith entry detach :=
  funext fun _ => propext ⟨.congr fun _ => order.mem_iff.symm, .congr fun _ => order.mem_iff⟩

theorem anchored_reorder (anchored : service.store.Anchored) :
    (service.reorder dependencies).store.Anchored :=
  fun dependency listed => anchored dependency (order.mem_iff.mp listed)

end Reorder

theorem Manager.Unhindered.reorder (free : Unhindered manager service)
    (dependencies : List Dependency) : Unhindered manager (service.reorder dependencies) :=
  ⟨free.reachable, free.opened, free.numbered⟩

/-! ### The deletion -/

/-- A deletion that nobody holds up succeeds. -/
theorem deleteEntry_fells (free : Unhindered manager service) (holds : service.store.Holds entry)
    {detach : Bool} (left : detach = true ∨ ¬ service.store.HasParent entry.id) :
    ∃ outcome after, (deleteEntry manager entry detach).run.run service = (.ok outcome, after) ∧
      Fells entry detach service.store outcome after.store := by
  have deletes := fells_deleteEntry free holds detach
  rcases result : (deleteEntry manager entry detach).run.run service with ⟨fault | outcome, after⟩
  · obtain ⟨notDetached, referenced⟩ := deletes.of_error result
    rcases left with isDetached | orphan
    · exact nomatch isDetached.symm.trans notDetached
    · exact absurd referenced.held orphan
  · exact ⟨outcome, after, rfl, (deletes.of_ok result).2.1⟩

/-- **A deletion takes exactly what goes with the entry.** Where some parent holds the entry and it
is not detached, nothing happens. Otherwise the deletion succeeds: the entries that go with this one
are gone with the dependencies on them and are reported, each once and the entry itself first. All
else is as it was, and the order of the dependencies makes no difference. -/
theorem deleteEntry_takes (reachable : service.outages = .none) (opened : IsOpen manager service)
    (numbered : service.store.Numbered) (anchored : service.store.Anchored)
    (holds : service.store.Holds entry) (detach : Bool) :
    (detach = false → service.store.HasParent entry.id →
      ∃ after, (deleteEntry manager entry detach).run.run service =
          (.error (.referenced entry.id), after) ∧ Still service after) ∧
    (detach = true ∨ ¬ service.store.HasParent entry.id →
      ∃ outcome after, (deleteEntry manager entry detach).run.run service = (.ok outcome, after) ∧
        outcome.deleted.head? = some entry ∧
        Takes (service.store.GoesWith entry detach) (fun _ => False) service.store outcome
          after.store ∧
        ∀ dependencies, dependencies.Perm service.store.dependencies →
          ∃ reordered reorderedAfter,
            (deleteEntry manager entry detach).run.run (service.reorder dependencies) =
              (.ok reordered, reorderedAfter) ∧
            reorderedAfter.store.entries = after.store.entries ∧
            reorderedAfter.store.dependencies.Perm after.store.dependencies ∧
            reordered.deleted.Perm outcome.deleted) := by
  have free : Unhindered manager service := ⟨reachable, opened, numbered⟩
  refine ⟨fun notDetached hasParent => ?_, fun left => ?_⟩
  · have deletes := fells_deleteEntry free holds detach
    rcases result : (deleteEntry manager entry detach).run.run service with
      ⟨fault | outcome, after⟩
    · obtain ⟨-, rfl, -, still⟩ := deletes.of_error result
      exact ⟨after, rfl, still⟩
    · rcases (deletes.of_ok result).2.2 with isDetached | orphan
      · exact nomatch isDetached.symm.trans notDetached
      · exact absurd hasParent orphan
  · obtain ⟨outcome, after, deletes, fells⟩ := deleteEntry_fells free holds left
    have takes := fells.takes anchored numbered
    have head : outcome.deleted.head? = some entry := by
      obtain ⟨-, -, -⟩ := fells
      rfl
    refine ⟨outcome, after, deletes, head, takes, fun dependencies order => ?_⟩
    obtain ⟨reordered, reorderedAfter, deletesToo, fellsToo⟩ :=
      deleteEntry_fells (free.reorder dependencies) (holds_reorder holds dependencies)
        (left.imp_right (mt (hasParent_reorder order).mp))
    have takesToo := fellsToo.takes (anchored_reorder order anchored) numbered
    rw [goesWith_reorder order] at takesToo
    exact ⟨reordered, reorderedAfter, deletesToo, takes.reordered takesToo rfl order⟩

/-- The sample service in which the object and its part are parts of each other. -/
def Service.sampleInCircle : Service := { Service.sample with
  registry := ⟨.ofList [(ObjectClass.resource,
    ObjectType.withRole { objectClass := .resource } .reader [.read]
      |>.withRule (PropagationRule.inherit "parts" .resource).cascading)]⟩
  graph := ⟨[⟨.sample, "parts", .part⟩, ⟨.part, "parts", .sample⟩]⟩ }

/-- The state after a grant on the object: one on the part came with it, and they uphold each
other. -/
def Service.circle : Service :=
  (replay [] .sampleInCircle [
    .call (.manage 0 .begin),
    .call (.manage 0 (.createEntry (.user "1") .sample .reader)),
    .outages .none]).2

theorem Service.intact_circle : Service.circle.store.Intact :=
  Stays.run (.replayed ..) .empty

theorem Service.unhindered_circle : Unhindered 0 Service.circle :=
  ⟨rfl, by decide +kernel, intact_circle.numbered⟩

theorem Service.holds_circle :
    Service.circle.store.Holds ⟨1, .user "1", .sample, .reader⟩ := by decide +kernel

/-- The entry on the object is held by the one on the part. Detached, it takes that one with it. -/
theorem deleteEntry_takes_circle :
    (∃ after, (deleteEntry 0 ⟨1, .user "1", .sample, .reader⟩ false).run.run .circle =
      (.error (.referenced 1), after)) ∧
    ∃ outcome after, (deleteEntry 0 ⟨1, .user "1", .sample, .reader⟩ true).run.run .circle =
        (.ok outcome, after) ∧
      outcome.deleted = [⟨1, .user "1", .sample, .reader⟩, ⟨2, .user "1", .part, .reader⟩] ∧
      ∀ entry ∈ outcome.deleted, after.store.get? entry.id = none := by
  have free := Service.unhindered_circle
  have takes := deleteEntry_takes free.reachable free.opened free.numbered
    Service.intact_circle.anchored Service.holds_circle
  have held : Service.circle.store.HasParent 1 := ⟨⟨2, 1, .cascade⟩, by decide +kernel, rfl⟩
  obtain ⟨after, refused, -⟩ := (takes false).1 rfl held
  obtain ⟨outcome, last, deletes, -, taken, -⟩ := (takes true).2 (.inl rfl)
  have both : ((deleteEntry 0 ⟨1, .user "1", .sample, .reader⟩ true).run.run
      Service.circle).1.toOption.map (·.deleted) =
        some [⟨1, .user "1", .sample, .reader⟩, ⟨2, .user "1", .part, .reader⟩] := by
    decide +kernel
  rw [deletes] at both
  exact ⟨⟨after, refused⟩, outcome, last, deletes, Option.some.inj both,
    fun entry listed => taken.gone entry.id ((taken.reported entry).mp listed).2⟩

end BookingAccess
