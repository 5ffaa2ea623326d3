/-
**What a manager finds of the entries.**

When a manager looks entries up, what the store answers is laid over with the working sets: what was
added is put in, and what was removed is left out. But the store has the changes of the open
transaction already, so both make no difference, whatever was created, deleted and created again.

* `getEntry_and_entries_exact`: the manager finds exactly what is stored.
-/

import BookingAccess.Proofs.Replay
import BookingAccess.Proofs.Transaction.Alone

namespace BookingAccess

open Service Manager Store

variable {manager : ManagerId} {start service : Service} {past : List Occurrence}

/-- **The manager finds exactly what is stored.** While nobody else writes to the store, be a
transaction open or not, a look-up that the store answers gives the one entry that grants exactly
this, if there is one, and the list of an object has its entries, each once and in order of their
numbers. -/
theorem getEntry_and_entries_exact (intact : start.store.Intact)
    (idle : start.transactions[manager]? = none)
    (run : Run (·.OthersSpareStore manager) start past service)
    (answers : ∀ kind, service.outages.store service.calls kind = none) (identity : Identity)
    (object : ObjectRef) (role : Role) :
    (∃ found after, (getEntry manager identity object role).run.run service =
        (.ok found, after) ∧
      ∀ entry, found = some entry ↔ service.store.Holds entry ∧ entry.identity = identity ∧
        entry.object = object ∧ entry.role = role) ∧
    ∃ listed after, (entries manager object).run.run service = (.ok listed, after) ∧
      (∀ entry, entry ∈ listed ↔ service.store.Holds entry ∧ entry.object = object) ∧
      listed.Pairwise fun first second => first.id < second.id := by
  have settled := settled_of_run run (.ofClosed intact.numbered idle)
  have intact : service.store.Intact := Stays.run run intact
  constructor
  · obtain ⟨found, answered, isFound, -⟩ := (answered_getEntry identity object role (answers _)
      intact settled.added settled.removed).exists_answer
    refine ⟨found, _, Prod.ext answered rfl, fun entry => ?_⟩
    rw [isFound]
    constructor
    · intro same
      obtain ⟨listed, grants⟩ := mem_of_find?_grants same
      exact ⟨intact.numbered.mem_entryList.mp listed, grants⟩
    · rintro ⟨holds, rfl, rfl, rfl⟩
      exact find?_of_holds intact holds
  · obtain ⟨listed, answered, isListed, -⟩ := (answered_entries object (answers _) intact
      settled.added settled.removed).exists_answer
    refine ⟨listed, _, Prod.ext answered rfl, ?_, ?_⟩
    all_goals rw [isListed]
    · exact fun entry => intact.numbered.mem_entriesOn
    · exact intact.numbered.pairwise_entriesOn object

/-- The state after the same grant was deleted and made again, in one transaction. -/
def Service.regranted : Service :=
  (replay [] .sample [
    .call (.manage 0 .begin),
    .call (.manage 0 (.createEntry (.user "1") .sample .reader)),
    .call (.manage 0 .commit),
    .call (.manage 0 .begin),
    .call (.manage 0 (.deleteEntry ⟨1, .user "1", .sample, .reader⟩ false)),
    .call (.manage 0 (.createEntry (.user "1") .sample .reader)),
    .outages .none]).2

/-- It is found under its new number, and only there. -/
theorem getEntry_and_entries_exact_regranted :
    ∃ after last, (getEntry 0 (.user "1") .sample .reader).run.run .regranted =
        (.ok (some ⟨2, .user "1", .sample, .reader⟩), after) ∧
      (entries 0 .sample).run.run .regranted =
        (.ok [⟨2, .user "1", .sample, .reader⟩], last) := by
  have run : Run (·.OthersSpareStore 0) .sample _ .regranted := .ofEvents (by decide +kernel)
  have answers (kind : StoreCall) :
      Service.regranted.outages.store Service.regranted.calls kind = none := rfl
  obtain ⟨⟨found, after, finds, isFound⟩, listed, last, lists, -⟩ :=
    getEntry_and_entries_exact .empty (Service.fresh_sample.idle 0) run answers (.user "1") .sample
      .reader
  have found_eq : found = some ⟨2, .user "1", .sample, .reader⟩ :=
    (isFound _).mpr ⟨by decide +kernel, rfl, rfl, rfl⟩
  have one : ((entries 0 .sample).run.run Service.regranted).1.toOption =
      some [⟨2, .user "1", .sample, .reader⟩] := by decide +kernel
  rw [lists] at one
  exact ⟨after, last, found_eq ▸ finds, Option.some.inj one ▸ lists⟩

end BookingAccess
