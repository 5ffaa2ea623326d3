/-
**What a commit may bring back.**

A commit puts the entries that its manager added into the cache, be they stored or not. If another
manager has removed such an entry and has committed before, nobody takes it out of the cache again,
and it goes on granting.

* `lost_of_run`: after a run the cache is current but for what was revived, which is still there;
  so it refers to a missing entry exactly if this was revived;
* `GrantRevived`: the only grants that users are told of although they are not stored;
* `revivalEvents`: two managers are enough for such a grant.
-/

import BookingAccess.Proofs.Answers.User

namespace BookingAccess

open Service Manager

variable {given : EntryId → Option Entry} {revived : Entry → Prop} {service start : Service}
  {past : List Occurrence} {entry : Entry} {user : UserId}

/-- A revived entry on the object, of a role that is enough, applies to the user. -/
def GrantRevived (past : List Occurrence) (service : Service) (user : UserId) (object : ObjectRef)
    (enough : Role → Prop) : Prop :=
  ∃ entry, Revived past entry ∧ entry.object = object ∧ enough entry.role ∧
    service.directory.Applies user entry.identity

/-! ### Runs -/

/-- After a run the cache is current but for what was revived, and all of that is still in it. -/
theorem lost_of_run (fresh : start.Fresh)
    (run : Run (fun occurrence => occurrence.EntriesAgree ∧ occurrence.CommitsAnswered ∧
      occurrence.NoRollback ∧ occurrence.NoGroupChange ∧ occurrence.NoClearing)
      start past service) :
    ∃ given, Current given (Revived past) service ∧
      ∀ entry, Revived past entry → Lost service entry := by
  induction run with
  | start => exact ⟨_, fresh.current, fun _ ⟨_, never, _⟩ => nomatch never⟩
  | @next past service event _ ruled ih =>
    obtain ⟨given, current, lost⟩ := ih
    obtain ⟨agree, answered, noRollback, noChange, noClearing⟩ := ruled
    have orderly : Orderly ⟨service, event⟩ :=
      ⟨agree, answered, noRollback, fun change called => absurd called (noChange change)⟩
    obtain ⟨more, _, later⟩ := current.event orderly
    refine ⟨more, later.mono fun _ => revived_cons.mpr, fun entry revives => ?_⟩
    rcases revived_cons.mp revives with now | earlier
    · exact .ofRevivedBy now current orderly
    · exact (lost entry earlier).event current orderly noClearing

/-! ### Answers -/

/-- **The cache refers to an entry that is not stored exactly if a commit has revived it**, whenever
no transaction is open, and users are told of no other grants than those stored or revived. -/
theorem refers_and_not_holds_iff (fresh : start.Fresh)
    (run : Run (fun occurrence => occurrence.EntriesAgree ∧ occurrence.CommitsAnswered ∧
      occurrence.NoRollback ∧ occurrence.NoGroupChange ∧ occurrence.NoClearing) start past service)
    (idle : service.Idle) :
    (∀ entry, Refers service entry ∧ ¬ service.store.Holds entry ↔ Revived past entry) ∧
    ∀ user object, user ≠ rootUserId →
      (∀ role, ((hasUserRole user object role).run.run service).1 = .ok true →
        Granted service user object (· = role) ∨
          GrantRevived past service user object (· = role)) ∧
      ∀ permission, ((hasUserPermission user object permission).run.run service).1 = .ok true →
        Granted service user object
            (permission ∈ service.registry.rolePermissions object.objectClass ·) ∨
          GrantRevived past service user object
            (permission ∈ service.registry.rolePermissions object.objectClass ·) := by
  obtain ⟨given, current, lost⟩ := lost_of_run fresh run
  constructor
  · intro entry
    constructor
    · rintro ⟨refers, gone⟩
      exact (current.holds_or_revived idle refers).resolve_left gone
    · exact fun revives => ⟨(lost entry revives).refers, (lost entry revives).gone⟩
  · intro user object notRoot
    have shown := current.ensures_userProjection idle user
    constructor
    · intro role answered
      obtain ⟨projection, shows, has⟩ := (ensures_hasUserRole notRoot shown).of_answer answered
      exact shows.granted_or_revived (shows.settled.hasRole_iff.mp has)
    · intro permission answered
      obtain ⟨projection, shows, has⟩ :=
        (ensures_hasUserPermission notRoot shown).of_answer answered
      exact shows.granted_or_revived (shows.settled.hasPermission_iff.mp has)

/-- While a manager has not yet committed its grant, another one removes it and commits. -/
def revivalEvents : List Event := [
  .call (.manage 0 .begin),
  .call (.manage 0 (.createEntry (.user "1") .sample .reader)),
  .call (.manage 1 .begin),
  .call (.manage 1 (.deleteEntry ⟨1, .user "1", .sample, .reader⟩ false)),
  .call (.manage 1 .commit),
  .call (.manage 0 .commit)]

theorem revived_after_revivalEvents :
    Revived (replay [] .sample revivalEvents).1 ⟨1, .user "1", .sample, .reader⟩ := by
  have keptInCache : (replay [] .sample revivalEvents).2.cache.entries[(1 : EntryId)]? =
      some ⟨1, .user "1", .sample, .reader⟩ := by
    decide +kernel
  exact ((refers_and_not_holds_iff Service.fresh_sample (Run.ofEvents (by decide +kernel))
    (by decide +kernel)).1 _).mp ⟨.inl ⟨1, keptInCache⟩, by decide +kernel⟩

/-- The user is told of a grant that is not stored. -/
theorem granted_after_revivalEvents :
    Run (fun occurrence => occurrence.EntriesAgree ∧ occurrence.CommitsAnswered ∧
        occurrence.NoRollback ∧ occurrence.NoGroupChange ∧ occurrence.NoClearing)
      .sample (replay [] .sample revivalEvents).1 (replay [] .sample revivalEvents).2 ∧
    (replay [] .sample revivalEvents).2.Idle ∧
    (replay [] .sample revivalEvents).2.store.entryList = [] ∧
    ((hasUserRole "1" .sample .reader).run.run (replay [] .sample revivalEvents).2).1 = .ok true ∧
    ∃ entry, Refers (replay [] .sample revivalEvents).2 entry ∧
      ¬ (replay [] .sample revivalEvents).2.store.Holds entry := by
  have keptInCache : (replay [] .sample revivalEvents).2.cache.entries[(1 : EntryId)]? =
      some ⟨1, .user "1", .sample, .reader⟩ := by
    decide +kernel
  exact ⟨Run.ofEvents (by decide +kernel), by decide +kernel, by decide +kernel,
    ok_of_toOption (by decide +kernel), _, .inl ⟨1, keptInCache⟩, by decide +kernel⟩

end BookingAccess
