/-
**What users are told that they may do.**

When no transaction is open, a user has a role on an object exactly if the store holds a grant of it
that applies to the user: one to the user, to everyone or to a group that the user is in. The cache
does not show, whatever was asked, changed or forgotten before.

* `faithful_of_run`: the cache is current after a run that spares open grants;
* `UserProjection.Shows`: what the projection of a user should show; `Current.shows_of_cached`: a
  cached one does while no transaction is open;
* `UserProjection.Shows.iff_granted`: so the answers are those of the store.
-/

import BookingAccess.Proofs.Cache.Runs
import BookingAccess.Proofs.Replay

namespace BookingAccess

open Service Manager

variable {given : EntryId → Option Entry} {service start : Service} {past : List Occurrence}
  {user : UserId} {entry : Entry} {object : ObjectRef}

/-- The store holds a grant on the object, of a role that is enough, that applies to the user. -/
def Granted (service : Service) (user : UserId) (object : ObjectRef) (enough : Role → Prop) :
    Prop :=
  ∃ entry, service.store.Holds entry ∧ entry.object = object ∧ enough entry.role ∧
    service.directory.Applies user entry.identity

/-! ### Runs -/

/-- The cache is current with nothing revived, and what open transactions have added is stored. -/
structure Faithful (given : EntryId → Option Entry) (service : Service) : Prop
    extends Current given (fun _ => False) service where
  owned : ∀ manager, Owned manager service

theorem Service.Fresh.faithful (fresh : start.Fresh) : Faithful start.store.get? start where
  toCurrent := fresh.current
  owned manager _ := fun ⟨_, opened, _⟩ => nomatch (fresh.idle manager).symm.trans opened

/-- **An orderly event that spares open grants keeps the cache faithful.** -/
theorem Faithful.event {occurrence : Occurrence} (faithful : Faithful given occurrence.before)
    (orderly : Orderly occurrence) (spares : occurrence.SparesOpenGrants) :
    ∃ more, Faithful more occurrence.after := by
  obtain ⟨more, _, current⟩ := faithful.toCurrent.event orderly
  refine ⟨more, current.mono ?_, Owned.event faithful.owned faithful.toCurrent orderly spares⟩
  rintro entry (revives | never)
  · exact Owned.not_revivedBy faithful.owned revives
  · exact never

/-- After a run from a sound directory the cache is faithful and the directory is sound. -/
theorem faithful_of_run (fresh : start.Fresh) (sound : start.directory.Sound)
    (run : Run (fun occurrence => occurrence.EntriesAgree ∧ occurrence.CommitsAnswered ∧
      occurrence.NoRollback ∧ occurrence.SparesOpenGrants) start past service) :
    (∃ given, Faithful given service) ∧ service.directory.Sound := by
  induction run with
  | start => exact ⟨⟨_, fresh.faithful⟩, sound⟩
  | @next past service event _ ruled ih =>
    obtain ⟨⟨given, faithful⟩, sound⟩ := ih
    obtain ⟨agree, answered, noRollback, spares⟩ := ruled
    have orderly : Orderly ⟨service, event⟩ := ⟨agree, answered, noRollback, fun _ _ => sound⟩
    exact ⟨faithful.event orderly spares,
      sound_of_event faithful.ledger faithful.tidy orderly sound⟩

/-! ### Answers -/

/-- Whatever projection a user is answered from, the answer is what it says. -/
theorem ensures_hasUserRole {tells : UserProjection → Prop} {role : Role}
    (notRoot : user ≠ rootUserId)
    (ensured : Ensures (userProjection user) service (fun projection _ => tells projection)
      (fun fault _ => fault.isOutage = true)) :
    Ensures (hasUserRole user object role) service
      (fun answer _ => ∃ projection, tells projection ∧ projection.hasRole object role = answer)
      (fun fault _ => fault.isOutage = true) := by
  have other : (user == rootUserId) = false := beq_eq_false_iff_ne.mpr notRoot
  unfold hasUserRole
  simp only [other, Bool.false_eq_true, if_false, ensures_bind, ensures_pure]
  exact ensured.mono (fun projection _ told => ⟨projection, told, rfl⟩) fun _ _ => id

theorem ensures_hasUserPermission {tells : UserProjection → Prop} {permission : Permission}
    (notRoot : user ≠ rootUserId)
    (ensured : Ensures (userProjection user) service (fun projection _ => tells projection)
      (fun fault _ => fault.isOutage = true)) :
    Ensures (hasUserPermission user object permission) service
      (fun answer _ => ∃ projection, tells projection ∧
        projection.hasPermission object permission = answer)
      (fun fault _ => fault.isOutage = true) := by
  have other : (user == rootUserId) = false := beq_eq_false_iff_ne.mpr notRoot
  unfold hasUserPermission
  simp only [other, Bool.false_eq_true, if_false, ensures_bind, ensures_pure]
  exact ensured.mono (fun projection _ told => ⟨projection, told, rfl⟩) fun _ _ => id

/-- What the projection of a user shows: entries that are stored or revived and that apply to the
user, and, unless the user is root, all stored entries of the identities that the user goes by. -/
structure UserProjection.Shows (revived : Entry → Prop) (service : Service) (user : UserId)
    (projection : UserProjection) : Prop where
  settled : projection.Settled service.registry
  held : ∀ {id : EntryId} {entry}, projection.entries[id]? = some entry →
    (service.store.Holds entry ∨ revived entry) ∧ service.directory.Applies user entry.identity
  has : ∀ {entry}, service.store.Holds entry → user ≠ rootUserId →
    entry.identity ∈ service.directory.identitiesOf user →
      projection.entries[entry.id]? = some entry

/-- **While no transaction is open, a current cache shows what it should.** -/
theorem Current.shows_of_cached {revived : Entry → Prop} (current : Current given revived service)
    (idle : service.Idle) {projection : UserProjection}
    (cached : service.cache.userProjections.value? user = some projection) :
    projection.Shows revived service user := by
  refine ⟨current.tidy.settled cached, fun {id entry} found => ?_,
    fun {entry} holds notRoot goes => ?_⟩
  · have refers : Refers service entry := .inr (.inl ⟨user, projection, cached, .inl ⟨id, found⟩⟩)
    exact ⟨current.holds_or_revived idle refers, (current.tidy.applies cached found).2⟩
  · refine Decidable.byContradiction fun lacks => ?_
    exact current.misses holds (not_arriving idle) user ⟨notRoot, goes, projection, cached, lacks⟩

/-- The projection that a user is answered from is in the cache by then. -/
theorem Current.ensures_userProjection {revived : Entry → Prop}
    (current : Current given revived service) (idle : service.Idle) (user : UserId) :
    Ensures (userProjection user) service
      (fun projection _ => projection.Shows revived service user)
      (fun fault _ => fault.isOutage = true) := by
  unfold userProjection
  simp only [ensures_bind, ensures_pure]
  refine (ensures_loadedUserProjection user).mono ?_ fun _ _ => And.left
  rintro loaded after ⟨cached, quiet⟩
  have later := current.rested (.ofQuiet current.ledger current.tidy quiet)
  have idleAfter : after.Idle := fun manager => quiet.transactions ▸ idle manager
  have holds_iff (entry : Entry) : after.store.Holds entry ↔ service.store.Holds entry :=
    (Untouched.ofQuiet quiet).holds_iff
  obtain ⟨settled, held, has⟩ := later.shows_of_cached idleAfter cached
  rw [quiet.registry] at settled
  simp only [quiet.directory, holds_iff] at held has
  exact ⟨settled, held, has⟩

namespace UserProjection.Shows

variable {revived : Entry → Prop} {projection : UserProjection} {enough : Role → Prop}

/-- What is shown was granted, or is revived. -/
theorem granted_or_revived (shows : projection.Shows revived service user)
    (found : ∃ (id : EntryId) (entry : Entry), projection.entries[id]? = some entry ∧
      entry.object = object ∧ enough entry.role) :
    Granted service user object enough ∨ ∃ entry, revived entry ∧ entry.object = object ∧
      enough entry.role ∧ service.directory.Applies user entry.identity := by
  obtain ⟨id, entry, held, here, suffices'⟩ := found
  obtain ⟨holds | revives, applies⟩ := shows.held held
  · exact .inl ⟨entry, holds, here, suffices', applies⟩
  · exact .inr ⟨entry, revives, here, suffices', applies⟩

/-- **Where nothing is revived, what is shown is exactly what was granted.** -/
theorem iff_granted (shows : projection.Shows (fun _ => False) service user)
    (sound : service.directory.Sound) (notRoot : user ≠ rootUserId) (object : ObjectRef)
    (enough : Role → Prop) :
    (∃ (id : EntryId) (entry : Entry), projection.entries[id]? = some entry ∧
      entry.object = object ∧ enough entry.role) ↔ Granted service user object enough := by
  constructor
  · intro found
    exact (shows.granted_or_revived found).resolve_right fun ⟨_, never, _⟩ => never
  · rintro ⟨entry, holds, here, suffices', applies⟩
    have goes := sound.mem_identitiesOf_iff.mpr applies
    exact ⟨entry.id, entry, shows.has holds notRoot goes, here, suffices'⟩

end UserProjection.Shows

/-- **The service answers truly whenever no transaction is open**: a user has a role through a
stored grant that applies to the user, and a permission through one whose role gives it. -/
theorem hasUserRole_and_hasUserPermission_iff (fresh : start.Fresh) (sound : start.directory.Sound)
    (run : Run (fun occurrence => occurrence.EntriesAgree ∧ occurrence.CommitsAnswered ∧
      occurrence.NoRollback ∧ occurrence.SparesOpenGrants) start past service)
    (idle : service.Idle) (notRoot : user ≠ rootUserId) (object : ObjectRef) :
    (∀ role answer, ((hasUserRole user object role).run.run service).1 = .ok answer →
      (answer = true ↔ Granted service user object (· = role))) ∧
    ∀ permission answer,
      ((hasUserPermission user object permission).run.run service).1 = .ok answer →
      (answer = true ↔ Granted service user object
        (permission ∈ service.registry.rolePermissions object.objectClass ·)) := by
  obtain ⟨⟨given, faithful⟩, sound⟩ := faithful_of_run fresh sound run
  have shown := faithful.ensures_userProjection idle user
  constructor
  · intro role answer answered
    obtain ⟨projection, shows, rfl⟩ := (ensures_hasUserRole notRoot shown).of_answer answered
    rw [shows.settled.hasRole_iff]
    exact shows.iff_granted sound notRoot object (· = role)
  · intro permission answer answered
    obtain ⟨projection, shows, rfl⟩ :=
      (ensures_hasUserPermission notRoot shown).of_answer answered
    rw [shows.settled.hasPermission_iff]
    exact shows.iff_granted sound notRoot object
      (permission ∈ service.registry.rolePermissions object.objectClass ·)

/-- The user is put into a group, asks while a grant to the group is not yet committed, leaves the
group and comes back. -/
def membershipEvents : List Event := [
  .call (.regroup (.create { id := "", name := "staff" })),
  .call (.regroup (.addUser "1" "1")),
  .call (.manage 0 .begin),
  .call (.manage 0 (.createEntry (.group "1") .sample .reader)),
  .call (.ask (.hasUserRole "1" .sample .reader)),
  .call (.manage 0 .commit),
  .call (.regroup (.removeUser "1" "1")),
  .call (.regroup (.addUser "1" "1"))]

theorem granted_after_membershipEvents :
    Granted (replay [] .sample membershipEvents).2 "1" .sample (· = .reader) :=
  ((hasUserRole_and_hasUserPermission_iff Service.fresh_sample Service.sound_sample
    (Run.ofEvents (by decide +kernel)) (by decide +kernel) (by decide) .sample).1 .reader true
      (ok_of_toOption (by decide +kernel))).mp rfl

end BookingAccess
