/-
**An entry by its number.**

A manager looks for an entry among those that it has added, then in the cache, then in the store; it
passes over what it has removed, but not over what it has added and removed again. So it finds what
is stored, unless the entry was withdrawn: then it finds what the cache still has.

* `Withdrawn`: the entry was added and removed again, or deleted in a transaction that was given up;
* `finds_entry`: where the manager looks, and what it comes to first;
* `entry_exact_unless_withdrawn`: what the manager finds.
-/

import BookingAccess.Proofs.Cache.Lingering
import BookingAccess.Proofs.Cache.Mindful
import BookingAccess.Proofs.Replay

namespace BookingAccess

open Service Manager Store

variable {manager : ManagerId} {start service : Service} {past : List Occurrence}

/-- The open transaction has added the entry with this number and removed it again, or an earlier
one had deleted it and was given up. -/
def Withdrawn (manager : ManagerId) (past : List Occurrence) (service : Service) (id : EntryId) :
    Prop :=
  (∃ occurrence ∈ past, occurrence.GivesUp manager id) ∨
    id ∈ (setsOf manager service).cancelled

/-- What is in the cache and stored is the same in both. -/
theorem Mindful.cached_eq {id : EntryId} {entry stored : Entry} (mindful : Mindful service)
    (cached : service.cache.entries[id]? = some entry)
    (found : service.store.get? id = some stored) : stored = entry := by
  obtain rfl := mindful.own (.inl cached)
  exact (mindful.known (.inl cached)).agrees stored found

/-- An entry that was withdrawn is not stored, but it is not listed as removed either. -/
theorem Withdrawn.absent {id : EntryId}
    (tracked : Tracked manager id (∃ occurrence ∈ past, occurrence.GivesUp manager id) service)
    (withdrawn : Withdrawn manager past service id) :
    service.store.get? id = none ∧ id ∉ (setsOf manager service).removed := by
  refine ⟨(tracked.spent (withdrawn.imp_right .inr)).1, ?_⟩
  rcases withdrawn with isLost | cancelled
  · exact fun removed => tracked.apart isLost (.inl removed)
  · exact tracked.recorded.once cancelled

/-- A look-up passes the working sets, the cache and the store, and takes what it comes to first. -/
theorem finds_entry {id : EntryId}
    (tracked : Tracked manager id (∃ occurrence ∈ past, occurrence.GivesUp manager id) service)
    (mindful : Mindful service)
    (answers : service.outages.store service.calls .getEntry = none) :
    Ensures (entry manager id) service
      (fun answer _ => (¬ Withdrawn manager past service id → answer = service.store.get? id) ∧
        (Withdrawn manager past service id →
          service.store.get? id = none ∧ answer = service.cache.entries[id]?))
      fun _ _ => False := by
  unfold entry currentSets
  simp only [ensures_bind, ensures_get, ensures_pure]
  split
  · rename_i entry added
    have stored := tracked.settled.stored added
    exact ⟨fun _ => stored.symm,
      fun withdrawn => absurd (stored.symm.trans (withdrawn.absent tracked).1)
        (Option.some_ne_none entry)⟩
  split
  · rename_i removed
    have removed := Std.ExtTreeMap.mem_iff_contains.mpr removed
    exact ⟨fun _ => (tracked.spent (.inr (.inl removed))).1.symm,
      fun withdrawn => absurd removed (withdrawn.absent tracked).2⟩
  rename_i notRemoved
  have notRemoved := mt Std.ExtTreeMap.mem_iff_contains.mp notRemoved
  simp only [ensures_bind, ensures_get]
  split
  · rename_i entry cached
    refine ⟨fun stays => ?_, fun withdrawn => ⟨(withdrawn.absent tracked).1, cached.symm⟩⟩
    cases stored : service.store.get? id with
    | some kept => exact congrArg some (mindful.cached_eq cached stored).symm
    | none =>
      have isCached := OrderedMap.mem_iff_exists.mpr ⟨entry, cached⟩
      rcases tracked.cached isCached stored with isLost | removed | cancelled
      · exact absurd (.inl isLost) stays
      · exact absurd removed notRemoved
      · exact absurd (.inr cancelled) stays
  · rename_i uncached
    refine (answered_read answers).mono ?_ fun _ _ never => never
    rintro answer _ ⟨rfl, -⟩
    refine ⟨fun _ => rfl, fun withdrawn => ?_⟩
    have absent := (withdrawn.absent tracked).1
    exact ⟨absent, absent.trans uncached.symm⟩

/-- **The manager finds the entry that is stored, unless it was withdrawn.** While only this manager
is called, and whatever is asked in between, a look-up that the store answers gives what the store
has under the number. A withdrawn entry is not stored, and what the cache has of it is found. -/
theorem entry_exact_unless_withdrawn (fresh : start.Fresh)
    (run : Run (·.ManagedBy manager) start past service)
    (answers : service.outages.store service.calls .getEntry = none) (id : EntryId) :
    ∃ answer after, (entry manager id).run.run service = (.ok answer, after) ∧
      ((setsOf manager service).Discards id → service.store.get? id = none) ∧
      (¬ Withdrawn manager past service id → answer = service.store.get? id) ∧
      (Withdrawn manager past service id →
        service.store.get? id = none ∧ answer = service.cache.entries[id]?) := by
  have tracked : Tracked manager id _ service := tracked_of_run fresh run
  obtain ⟨answer, answered, exact, lingers⟩ :=
    (finds_entry tracked (mindful_of_run fresh run) answers).exists_answer
  exact ⟨answer, _, Prod.ext answered rfl, fun discards => (tracked.spent (.inr discards)).1, exact,
    lingers⟩

/-- An entry is granted and committed, and then deleted in the next transaction. -/
def revokingEvents : List Event := [
  .call (.manage 0 .begin),
  .call (.manage 0 (.createEntry (.user "1") .sample .reader)),
  .call (.manage 0 .commit),
  .call (.manage 0 .begin),
  .call (.manage 0 (.deleteEntry ⟨1, .user "1", .sample, .reader⟩ false))]

def Service.revoking : Service := (replay [] .sample revokingEvents).2

/-- The cache has the entry until the commit, but it is not found. -/
theorem entry_exact_unless_withdrawn_revoking :
    (1 : EntryId) ∈ Service.revoking.cache.entries ∧
      ∃ after, (entry 0 1).run.run .revoking = (.ok none, after) := by
  have run : Run (·.ManagedBy 0) .sample (replay [] .sample revokingEvents).1 .revoking :=
    .ofEvents (by decide +kernel)
  obtain ⟨answer, after, finds, absent, exact, -⟩ :=
    entry_exact_unless_withdrawn fresh_sample run (by decide +kernel) 1
  -- It was deleted at the very end, by a transaction that had not added it.
  have unspent : ∀ occurrence ∈ (replay [] .sample revokingEvents).1,
      ¬ (setsOf 0 occurrence.before).Discards 1 := by decide +kernel
  have discards : (setsOf 0 Service.revoking).Discards 1 ∧
      1 ∉ (setsOf 0 Service.revoking).cancelled := by decide +kernel
  have answer_eq : answer = none := (exact fun withdrawn => withdrawn.elim
    (fun ⟨occurrence, occurred, givesUp⟩ => unspent occurrence occurred givesUp.1)
    discards.2).trans (absent discards.1)
  exact ⟨by decide +kernel, after, answer_eq ▸ finds⟩

/-- The state after an entry was granted, looked at and deleted, all in one transaction. -/
def Service.withdrawing : Service :=
  (replay [] .sample [
    .call (.manage 0 .begin),
    .call (.manage 0 (.createEntry (.user "1") .sample .reader)),
    .call (.ask (.hasUserRole "1" .sample .reader)),
    .call (.manage 0 (.deleteEntry ⟨1, .user "1", .sample, .reader⟩ false))]).2

/-- The entry is found in the cache, though the transaction has deleted it, and neither the store
nor the list of the object has it. -/
theorem withdrawn_found : (∃ past, Run (·.ManagedBy 0) .sample past .withdrawing) ∧
    IsOpen 0 .withdrawing ∧ (setsOf 0 .withdrawing).Discards 1 ∧
    Service.withdrawing.store.get? 1 = none ∧
    ((entries 0 .sample).run.run .withdrawing).1.toOption = some [] ∧
    ((entry 0 1).run.run .withdrawing).1.toOption =
      some (some ⟨1, .user "1", .sample, .reader⟩) :=
  ⟨⟨_, .ofEvents (by decide +kernel)⟩, by decide +kernel⟩

end BookingAccess
