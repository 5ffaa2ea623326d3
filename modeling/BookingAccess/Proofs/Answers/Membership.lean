/-
**Who holds a role after members of a group have changed.**

A user is told about a role from the projection of the user, which a change of membership drops, and
the holders of a role are told from the projection of the object, which it leaves alone. So the first
answer goes by the groups as they are, and the second one, for each entry, by the groups as they were
when the entry was listed. The two answers agree exactly where both times give the user the role.

* `directoryWhenListed`, `GrantedWhenListed`: what a projection of an object goes by;
* `ListedFor.event`, `listedFor_of_run`: it keeps going by it, whatever is called;
* `Run.sparing`: a single manager spares the grants of open transactions;
* `hasUserRole_and_userIdsWithRole_iff`: both answers after a run, and when they agree.
-/

import BookingAccess.Proofs.Answers.User
import BookingAccess.Proofs.Answers.Object
import BookingAccess.Proofs.Service.Reaching

namespace BookingAccess

open Service Manager

variable {given : EntryId → Option Entry} {service start : Service} {past : List Occurrence}
  {occurrence : Occurrence} {manager : ManagerId} {user : UserId} {object : ObjectRef}
  {entry : Entry} {rule : Occurrence → Prop}

/-! ### Listed entries -/

/-- The directory that names the users of a listed entry: the one from before the event that put it
into the projection of its object, or the present one, if the entry is not listed yet. -/
def directoryWhenListed (entry : Entry) : List Occurrence → Service → Directory
  | [], service => service.directory
  | occurrence :: past, service =>
    if service.lists entry then directoryWhenListed entry past occurrence.before
    else service.directory

/-- The store holds a grant on the object, of a role that is enough, that applied to the user when
it was listed. -/
def GrantedWhenListed (past : List Occurrence) (service : Service) (user : UserId)
    (object : ObjectRef) (enough : Role → Prop) : Prop :=
  ∃ entry, service.store.Holds entry ∧ entry.object = object ∧ enough entry.role ∧
    (directoryWhenListed entry past service).Applies user entry.identity

/-- What is not listed yet will be resolved by the present directory. -/
theorem directoryWhenListed_of_not_lists (past : List Occurrence)
    (notListed : service.lists entry = false) :
    directoryWhenListed entry past service = service.directory := by
  cases past with
  | nil => rfl
  | cons occurrence past =>
    rw [directoryWhenListed, if_neg (by simp [notListed])]

theorem listedFor_of_blank {directoryOf : Entry → Directory} (blank : Blank service.cache) :
    ListedFor directoryOf service := by
  intro entry users _ found
  obtain ⟨projection, cached, _⟩ := listed?_eq_some_iff.mp found
  exact nomatch (blank.objects _).symm.trans cached

/-- What holds within a call that writes: the directory is the same, what was listed is listed, and
no entry has come into the store that was listed before. -/
structure ListedSince (before after : Service) : Prop where
  directory : after.directory = before.directory
  relisted : Relisted (fun _ => False) before after
  stored : ∀ entry, after.store.Holds entry → before.lists entry = true →
    before.store.Holds entry

/-- A new entry is not listed: its number was never given out. -/
theorem not_lists_of_created {revived : Entry → Prop} {sets : WorkingSets} {before after : Service}
    (current : Current given revived before) (created : Created manager sets entry before after) :
    before.lists entry = false := by
  unfold lists
  cases found : before.listed? entry.object entry.id with
  | none => rfl
  | some holder =>
    obtain ⟨projection, cached, held⟩ := listed?_eq_some_iff.mp found
    have isGiven := (current.tidy.located cached held).1
    exact nomatch (current.ledger.fresh created.number).symm.trans isGiven

theorem listedSince_of_writes {revived : Entry → Prop} {aim : Aim} {before after : Service}
    (current : Current given revived before) (writes : Writes manager aim before after) :
    ListedSince before after := by
  refine (current.writes writes (ListedSince before) ⟨rfl, .ofObjects rfl, fun _ holds _ => holds⟩
    ?_ ?_ ?_).elim fun _ kept => kept.2.2
  · rintro given middle later current quiet ⟨directory, relisted, stored⟩
    refine ⟨quiet.directory.trans directory,
      relisted.trans (.ofQuiet current.tidy quiet) directory, fun entry holds => ?_⟩
    exact stored entry ((Untouched.ofQuiet quiet).holds_iff.mp holds)
  · rintro given sets entry middle later current created ⟨directory, relisted, stored⟩
    refine ⟨created.directory.trans directory,
      relisted.trans (.ofObjects (by rw [created.cache])) directory, fun other holds listed => ?_⟩
    rcases (current.ledger.holds_created created).mp holds with rfl | held
    · obtain ⟨holder, found⟩ := Option.isSome_iff_exists.mp listed
      have stillListed : middle.lists other = true :=
        Option.isSome_iff_exists.mpr ⟨holder, relisted.stays not_false found⟩
      rw [not_lists_of_created current created] at stillListed
      exact nomatch stillListed
    · exact stored other held listed
  · rintro given sets entry middle later current deleted ⟨directory, relisted, stored⟩
    refine ⟨deleted.directory.trans directory,
      relisted.trans (.ofObjects (by rw [deleted.cache])) directory, fun other holds => ?_⟩
    exact stored other ((current.ledger.holds_deleted deleted).mp holds).1

/-- **An orderly event lists entries with the users of the directory before it**, and leaves listed
what is listed. -/
theorem Service.ListedFor.event {revived : Entry → Prop} {directoryOf : Entry → Directory}
    (listed : ListedFor directoryOf occurrence.before)
    (current : Current given revived occurrence.before) (orderly : Orderly occurrence)
    (now : ∀ entry, occurrence.before.lists entry = false →
      directoryOf entry = occurrence.before.directory) :
    ListedFor directoryOf occurrence.after := by
  cases move_of_event current.ledger current.tidy orderly with
  | rested rested _ _ relisted =>
    rcases relisted with blank | relisted
    · exact listedFor_of_blank blank
    · exact listed.relisted relisted
        (fun entry holds => ⟨not_false, fun _ => rested.holds_iff.mp holds⟩) now
  | written manager task aim _ writes =>
    have since := listedSince_of_writes current writes
    exact listed.relisted since.relisted
      (fun entry holds => ⟨not_false, since.stored entry holds⟩) now
  | committed manager sets _ opened committed =>
    have relisted : Relisted sets.DropsId occurrence.before occurrence.after :=
      ⟨committed.reworked.listed.newcomers, committed.reworked.listed.stays⟩
    refine listed.relisted relisted (fun entry holds => ?_) now
    have held : occurrence.before.store.Holds entry := committed.untouched.holds_iff.mp holds
    exact ⟨current.ledger.not_dropsId_of_holds opened held, fun _ => held⟩

/-- **After a run, entries are listed with the users that they had when they were listed.** -/
theorem listedFor_of_run (fresh : start.Fresh) (sound : start.directory.Sound)
    (run : Run (fun occurrence => occurrence.EntriesAgree ∧ occurrence.CommitsAnswered ∧
      occurrence.NoRollback ∧ occurrence.SparesOpenGrants) start past service) :
    ListedFor (directoryWhenListed · past service) service := by
  induction run with
  | start => exact listedFor_of_blank (fresh.cache ▸ blank_empty)
  | @next past service event earlier ruled ih =>
    obtain ⟨⟨given, faithful⟩, sound⟩ := faithful_of_run fresh sound earlier
    obtain ⟨agree, answered, noRollback, _⟩ := ruled
    have orderly : Orderly ⟨service, event⟩ := ⟨agree, answered, noRollback, fun _ _ => sound⟩
    intro entry users holds found
    have isListed : (event.next service).lists entry = true :=
      Option.isSome_iff_exists.mpr ⟨_, found⟩
    have sameTime : directoryWhenListed entry (⟨service, event⟩ :: past) (event.next service) =
        directoryWhenListed entry past service := if_pos isListed
    show users = (directoryWhenListed entry (⟨service, event⟩ :: past) _).usersOf _
    rw [sameTime]
    exact ih.event faithful.toCurrent orderly
      (fun _ => directoryWhenListed_of_not_lists past) entry users holds found

/-! ### A single manager -/

/-- Where all changes go through one manager, no other manager has a transaction open. -/
theorem not_open_of_managedBy (agree : ∀ occurrence, rule occurrence → occurrence.EntriesAgree)
    (sole : ∀ occurrence, rule occurrence → occurrence.ManagedBy manager)
    (numbered : start.store.Numbered) (idle : start.Idle) (run : Run rule start past service)
    {other : ManagerId} (different : other ≠ manager) : service.transactions[other]? = none := by
  induction run with
  | start => exact idle other
  | @next past service event earlier ruled ih =>
    obtain ⟨given, accounted⟩ := accounted_of_run agree numbered idle earlier
    have ledger := accounted.toLedger
    have sole := sole _ ruled
    have consequence : Consequence ⟨service, event⟩ :=
      consequence_of_event ledger.numbered (agree _ ruled) fun _ _ => ledger.agrees_seen
    cases consequence with
    | steady steady => exact steady.transactions ▸ ih
    | opened actor called _ steady =>
      obtain rfl := sole actor _ called
      have after : (event.next service).transactions = service.transactions.insert actor .empty :=
        steady.transactions
      rw [after, OrderedMap.lookup_insert, if_neg different.symm]
      exact ih
    | written actor task aim called writes =>
      obtain rfl := sole actor _ called
      exact (writes.others different.symm).trans ih
    | closed actor steady =>
      have after : (event.next service).transactions = service.transactions.erase actor :=
        steady.transactions
      rw [after, OrderedMap.lookup_erase, ih, ite_self]

/-- **A single manager spares the grants of open transactions**: there are no others. -/
theorem Run.sparing (agree : ∀ occurrence, rule occurrence → occurrence.EntriesAgree)
    (sole : ∀ occurrence, rule occurrence → occurrence.ManagedBy manager)
    (numbered : start.store.Numbered) (idle : start.Idle) (run : Run rule start past service) :
    Run (fun occurrence => rule occurrence ∧ occurrence.SparesOpenGrants) start past service := by
  induction run with
  | start => exact .start
  | @next past service event earlier ruled ih =>
    refine .next event ih ⟨ruled, fun actor task called other sets different opened => ?_⟩
    obtain rfl := sole _ ruled actor task called
    exact nomatch (not_open_of_managedBy agree sole numbered idle earlier different).symm.trans
      opened

/-! ### Answers -/

/-- The holders of a role are told from entries with the users that they are listed with. -/
theorem ensures_userIdsWithRole (current : Current given (fun _ => False) service)
    (idle : service.Idle) {directoryOf : Entry → Directory}
    (listed : ListedFor directoryOf service)
    (now : ∀ entry, service.lists entry = false → directoryOf entry = service.directory)
    (object : ObjectRef) (role : Role) :
    Ensures (userIdsWithRole object role) service
      (fun users _ => ∀ user, users.contains user = true ↔
        ∃ entry, service.store.Holds entry ∧ entry.object = object ∧ entry.role = role ∧
          (directoryOf entry).Applies user entry.identity)
      (fun fault _ => fault.isOutage = true) := by
  unfold userIdsWithRole objectProjection
  simp only [ensures_bind, ensures_pure]
  refine (ensures_loadedObjectProjection object).mono ?_ fun _ _ => And.left
  rintro loaded after ⟨cached, quiet⟩ user
  have later := current.rested (.ofQuiet current.ledger current.tidy quiet)
  have idleAfter : after.Idle := fun manager => quiet.transactions ▸ idle manager
  have holds_iff {entry : Entry} : after.store.Holds entry ↔ service.store.Holds entry :=
    (Untouched.ofQuiet quiet).holds_iff
  have relisted : Relisted (fun _ => False) service after := .ofQuiet current.tidy quiet
  have listedAfter : ListedFor directoryOf after :=
    listed.relisted relisted (fun entry holds => ⟨not_false, fun _ => holds_iff.mp holds⟩) now
  have summed := later.tidy.summed cached
  have onObject (entry : Entry) : (∃ (id : EntryId) (holder : ResolvedEntry),
      loaded.value.entries[id]? = some holder ∧ holder.entry = entry) ↔
        after.store.Holds entry ∧ entry.object = object :=
    later.lookup_iff_on idleAfter cached
  -- A holder of the projection is a stored entry with the users that it is listed with.
  have resolved {id : EntryId} {holder : ResolvedEntry}
      (found : loaded.value.entries[id]? = some holder) :
      holder.users.contains user = true ↔
        (directoryOf holder.entry).Applies user holder.entry.identity := by
    obtain ⟨holds, here⟩ := (onObject holder.entry).mp ⟨id, holder, found, rfl⟩
    have isListed : after.listed? holder.entry.object holder.entry.id = some holder := by
      rw [here, summed.numbered found]
      exact listed?_eq_some_iff.mpr ⟨loaded.value, cached, found⟩
    rw [listedAfter holder.entry holder.users holds isListed, Directory.contains_usersOf_iff]
  rw [summed.contains_iff]
  constructor
  · rintro ⟨id, holder, found, hasRole, contains⟩
    obtain ⟨holds, here⟩ := (onObject holder.entry).mp ⟨id, holder, found, rfl⟩
    exact ⟨holder.entry, holds_iff.mp holds, here, hasRole, (resolved found).mp contains⟩
  · rintro ⟨entry, holds, here, hasRole, applies⟩
    obtain ⟨id, holder, found, rfl⟩ := (onObject entry).mpr ⟨holds_iff.mpr holds, here⟩
    exact ⟨id, holder, found, hasRole, (resolved found).mpr applies⟩

/-- **What is told of a role from the user and from the object.** While no transaction is open and
every collaborator can be reached, both questions are answered. The user has the role if a stored
grant applies to the user, and is among the holders if one applied when it was listed; the two
answers agree exactly if both or neither is so. -/
theorem hasUserRole_and_userIdsWithRole_iff (fresh : start.Fresh) (sound : start.directory.Sound)
    (run : Run (fun occurrence => occurrence.EntriesAgree ∧ occurrence.CommitsAnswered ∧
      occurrence.NoRollback ∧ occurrence.ManagedBy manager) start past service)
    (idle : service.Idle) (reached : service.outages = .none) (notRoot : user ≠ rootUserId)
    (object : ObjectRef) (role : Role) :
    ∃ answer users, ((hasUserRole user object role).run.run service).1 = .ok answer ∧
      ((userIdsWithRole object role).run.run service).1 = .ok users ∧
      (answer = true ↔ Granted service user object (· = role)) ∧
      (users.contains user = true ↔ GrantedWhenListed past service user object (· = role)) ∧
      (answer = users.contains user ↔
        (Granted service user object (· = role) ↔
          GrantedWhenListed past service user object (· = role))) := by
  have spared : Run (fun occurrence => occurrence.EntriesAgree ∧ occurrence.CommitsAnswered ∧
      occurrence.NoRollback ∧ occurrence.SparesOpenGrants) start past service := by
    refine (Run.sparing (fun _ => And.left) (fun _ ruled => ruled.2.2.2) fresh.numbered fresh.idle
      run).mono ?_
    rintro occurrence ⟨⟨agree, answered, noRollback, _⟩, spares⟩
    exact ⟨agree, answered, noRollback, spares⟩
  obtain ⟨⟨given, faithful⟩, soundNow⟩ := faithful_of_run fresh sound spared
  have reachesUser : Reaches AccessError.isOutage (hasUserRole user object role) := by
    unfold hasUserRole userProjection
    split
    · exact .pure
    · exact .bind (.bind (reaches_loadedUserProjection user) fun _ => .pure) fun _ => .pure
  have reachesObject : Reaches AccessError.isOutage (userIdsWithRole object role) :=
    .bind (.bind (reaches_loadedObjectProjection object) fun _ => .pure) fun _ => .pure
  obtain ⟨answer, answered, projection, shows, rfl⟩ := exists_answer_of_reaches reached reachesUser
    (ensures_hasUserRole notRoot (faithful.ensures_userProjection idle user))
  obtain ⟨users, listed, holders⟩ := exists_answer_of_reaches reached reachesObject
    (ensures_userIdsWithRole faithful.toCurrent idle (listedFor_of_run fresh sound spared)
      (fun _ => directoryWhenListed_of_not_lists past) object role)
  have granted : projection.hasRole object role = true ↔
      Granted service user object (· = role) := by
    rw [shows.settled.hasRole_iff]
    exact shows.iff_granted soundNow notRoot object (· = role)
  have whenListed : users.contains user = true ↔
      GrantedWhenListed past service user object (· = role) := holders user
  refine ⟨_, users, answered, listed, granted, whenListed, ?_⟩
  rw [← granted, ← whenListed, Bool.eq_iff_iff]

/-- The user leaves a group after a grant to it was committed. Every collaborator can be reached all
the while. -/
def leavingEvents : List Event := [
  .call (.regroup (.create { id := "", name := "staff" })),
  .call (.regroup (.addUser "1" "1")),
  .call (.manage 0 .begin),
  .call (.manage 0 (.createEntry (.group "1") .sample .reader)),
  .call (.manage 0 .commit),
  .call (.regroup (.removeUser "1" "1")),
  .outages .none]

theorem listed_after_leavingEvents :
    ¬ Granted (replay [] .sample leavingEvents).2 "1" .sample (· = .reader) ∧
      GrantedWhenListed (replay [] .sample leavingEvents).1 (replay [] .sample leavingEvents).2 "1"
        .sample (· = .reader) := by
  have run : Run (fun occurrence => occurrence.EntriesAgree ∧ occurrence.CommitsAnswered ∧
      occurrence.NoRollback ∧ occurrence.ManagedBy 0) .sample (replay [] .sample leavingEvents).1
      (replay [] .sample leavingEvents).2 := .ofEvents (by decide +kernel)
  obtain ⟨answer, users, answered, listed, granted, whenListed, -⟩ :=
    hasUserRole_and_userIdsWithRole_iff Service.fresh_sample Service.sound_sample run
      (by decide +kernel) rfl (show "1" ≠ rootUserId by decide) .sample .reader
  have denied : ((hasUserRole "1" .sample .reader).run.run
      (replay [] .sample leavingEvents).2).1 = .ok false := ok_of_toOption (by decide +kernel)
  have named : ((userIdsWithRole .sample .reader).run.run
      (replay [] .sample leavingEvents).2).1 = .ok (.single "1") :=
    ok_of_toOption (by decide +kernel)
  obtain rfl := Except.ok.inj (answered.symm.trans denied)
  obtain rfl := Except.ok.inj (listed.symm.trans named)
  exact ⟨fun holds => (nomatch granted.mpr holds), whenListed.mp (by decide +kernel)⟩

/-- The user is still told to be a holder of the role, although the role is no longer the user's. -/
theorem disagreement_after_leavingEvents :
    Service.sample.Fresh ∧ Service.sample.directory.Sound ∧
      Run (fun occurrence => occurrence.EntriesAgree ∧ occurrence.CommitsAnswered ∧
          occurrence.NoRollback ∧ occurrence.ManagedBy 0) .sample
        (replay [] .sample leavingEvents).1 (replay [] .sample leavingEvents).2 ∧
      (replay [] .sample leavingEvents).2.Idle ∧
      (replay [] .sample leavingEvents).2.outages = .none ∧
      ((hasUserRole "1" .sample .reader).run.run
        (replay [] .sample leavingEvents).2).1 = .ok false ∧
      ((userIdsWithRole .sample .reader).run.run
        (replay [] .sample leavingEvents).2).1 = .ok (.single "1") :=
  ⟨Service.fresh_sample, Service.sound_sample, Run.ofEvents (by decide +kernel),
    by decide +kernel, rfl, ok_of_toOption (by decide +kernel), ok_of_toOption (by decide +kernel)⟩

end BookingAccess
