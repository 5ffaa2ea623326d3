/-
**Who is told to hold a role.**

When no transaction is open, the users with a role on an object are those that the identities of the
stored grants stand for, all together. This holds as long as the groups stay the same: a cached
projection keeps the users of an identity as they were when the entry came in.

* `resolved_of_run`: a cached projection names the users of the directory;
* `Current.lookup_iff_on`: it has exactly the stored entries on its object, so the answer is the
  union over these.
-/

import BookingAccess.Proofs.Answers.User

namespace BookingAccess

open Service Manager

variable {given : EntryId → Option Entry} {service start : Service} {past : List Occurrence}
  {entry : Entry} {object : ObjectRef} {role : Role}

/-- After a run that changes no group the cache is faithful and names the users of the directory. -/
theorem resolved_of_run (fresh : start.Fresh)
    (run : Run (fun occurrence => occurrence.EntriesAgree ∧ occurrence.CommitsAnswered ∧
      occurrence.NoRollback ∧ occurrence.SparesOpenGrants ∧ occurrence.NoGroupChange)
      start past service) : (∃ given, Faithful given service) ∧ Resolved service := by
  induction run with
  | start =>
    have blank : Blank start.cache := fresh.cache ▸ blank_empty
    exact ⟨⟨_, fresh.faithful⟩, blank.resolved⟩
  | @next past service event _ ruled ih =>
    obtain ⟨⟨given, faithful⟩, resolved⟩ := ih
    obtain ⟨agree, answered, noRollback, spares, noChange⟩ := ruled
    have orderly : Orderly ⟨service, event⟩ :=
      ⟨agree, answered, noRollback, fun change called => absurd called (noChange change)⟩
    exact ⟨faithful.event orderly spares,
      resolved_of_event faithful.toCurrent orderly noChange resolved⟩

/-- **A cached projection has exactly the stored entries on its object.** -/
theorem Current.lookup_iff_on (current : Current given (fun _ => False) service)
    (idle : service.Idle) {projection : ObjectProjection}
    (cached : service.cache.objectProjections.value? object = some projection) :
    (∃ (id : EntryId) (holder : ResolvedEntry), projection.entries[id]? = some holder ∧
      holder.entry = entry) ↔ service.store.Holds entry ∧ entry.object = object := by
  constructor
  · rintro ⟨id, holder, found, rfl⟩
    have refers : Refers service holder.entry :=
      .inr (.inr ⟨object, projection, cached, id, holder, found, rfl⟩)
    exact ⟨(current.holds_or_revived idle refers).resolve_right not_false,
      (current.tidy.located cached found).2⟩
  · rintro ⟨holds, rfl⟩
    refine Classical.byContradiction fun lacks => ?_
    refine current.missesOn holds (not_arriving idle) ⟨projection, cached, fun users found => ?_⟩
    exact lacks ⟨entry.id, ⟨entry, users⟩, found, rfl⟩

/-- **The users with a role are those that the identities of the stored grants stand for**, whenever
no transaction is open. -/
theorem userIdsWithRole_eq_unionOver (fresh : start.Fresh)
    (run : Run (fun occurrence => occurrence.EntriesAgree ∧ occurrence.CommitsAnswered ∧
      occurrence.NoRollback ∧ occurrence.SparesOpenGrants ∧ occurrence.NoGroupChange)
      start past service) (idle : service.Idle) {users : UserIds}
    (answered : ((userIdsWithRole object role).run.run service).1 = .ok users) :
    users = UserIds.unionOver (fun entry => service.directory.usersOf entry.identity)
      ((service.store.entriesOn object).filter (·.role == role)) := by
  obtain ⟨⟨given, faithful⟩, resolved⟩ := resolved_of_run fresh run
  have ensured : Ensures (userIdsWithRole object role) service
      (fun users _ => users = UserIds.unionOver
        (fun entry => service.directory.usersOf entry.identity)
        ((service.store.entriesOn object).filter (·.role == role))) (fun _ _ => True) := by
    unfold userIdsWithRole objectProjection
    simp only [ensures_bind, ensures_pure]
    refine (ensures_loadedObjectProjection object).mono ?_ fun _ _ _ => trivial
    rintro loaded after ⟨cached, quiet⟩
    have later := faithful.toCurrent.rested (.ofQuiet faithful.ledger faithful.tidy quiet)
    have idleAfter : after.Idle := fun manager => quiet.transactions ▸ idle manager
    refine (later.tidy.summed cached).usersWithRole_eq (fun entry => ?_) fun found => ?_
    · rw [later.lookup_iff_on idleAfter cached, (Untouched.ofQuiet quiet).holds_iff,
        List.mem_filter, faithful.ledger.numbered.mem_entriesOn, beq_iff_eq]
    · rw [← quiet.directory]
      exact resolved.quiet faithful.tidy quiet object loaded.value cached _ _ found
  exact ensured.of_answer answered

/-- Two users hold the role by grants that are added and removed before anybody asks or after. -/
def holderEvents : List Event := [
  .call (.manage 0 .begin),
  .call (.manage 0 (.createEntry (.user "1") .sample .reader)),
  .call (.ask (.userIdsWithRole .sample .reader)),
  .call (.manage 1 .begin),
  .call (.manage 1 (.createEntry (.user "2") .sample .reader)),
  .call (.manage 1 (.createEntry (.user "3") .sample .reader)),
  .call (.manage 0 .commit),
  .call (.manage 1 (.deleteEntry ⟨3, .user "3", .sample, .reader⟩ false)),
  .call (.manage 1 .commit)]

theorem holders_after_holderEvents :
    ∃ users, ((userIdsWithRole .sample .reader).run.run
        (replay [] .sample holderEvents).2).1 = .ok users ∧ users.toList = ["1", "2"] ∧
      users = UserIds.unionOver
        (fun entry => (replay [] .sample holderEvents).2.directory.usersOf entry.identity)
        (((replay [] .sample holderEvents).2.store.entriesOn .sample).filter
          (·.role == .reader)) := by
  have listed : ((userIdsWithRole .sample .reader).run.run
      (replay [] .sample holderEvents).2).1.toOption.map UserIds.toList = some ["1", "2"] := by
    decide +kernel
  obtain ⟨users, found, list⟩ := Option.map_eq_some_iff.mp listed
  have answered := ok_of_toOption found
  exact ⟨users, answered, list, userIdsWithRole_eq_unionOver Service.fresh_sample
    (Run.ofEvents (by decide +kernel)) (by decide +kernel) answered⟩

end BookingAccess
