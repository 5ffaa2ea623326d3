/-
**The cache after a run.**

In an orderly run the handed-over entries are genuine, commits are answered, nothing is rolled back,
and groups are changed in a sound directory only. Then every event rests, writes or commits, and the
cache stays current.

* `Orderly`: the rule; `Move`, `move_of_event`: what an event may do under it;
* `Revived`: the entries that a commit has put back although they were removed;
* `Current.event`: the cache stays current but for these;
* `Owned`: the additions of open transactions are stored; `Lost`: an entry that was revived stays.
-/

import BookingAccess.Proofs.Cache.Current

namespace BookingAccess

open Service Manager

variable {given : EntryId → Option Entry} {manager : ManagerId} {sets : WorkingSets}
  {before after service start : Service} {entry : Entry} {occurrence : Occurrence}
  {past : List Occurrence} {rule : Occurrence → Prop}

/-- What is expected of an event. -/
structure Orderly (occurrence : Occurrence) : Prop where
  agree : occurrence.EntriesAgree
  answered : occurrence.CommitsAnswered
  noRollback : occurrence.NoRollback
  sound : ∀ change, occurrence.event = .call (.regroup change) →
    occurrence.before.directory.Sound

/-! ### Moves -/

/-- What an orderly event may do. -/
inductive Move (given : EntryId → Option Entry) (occurrence : Occurrence) : Prop
  /-- It changes no grant; it forgets an entry only if it clears the cache, the directory changes
  only with the groups, and what is listed stays so unless the cache is empty. -/
  | rested : Rested given occurrence.before occurrence.after →
      (occurrence.NoClearing → ∀ {id : EntryId},
        occurrence.before.cache.entries[id]?.isSome = true →
          occurrence.after.cache.entries[id]?.isSome = true) →
      (occurrence.NoGroupChange → occurrence.after.directory = occurrence.before.directory) →
      (Blank occurrence.after.cache ∨
        Relisted (fun _ => False) occurrence.before occurrence.after) →
      Move given occurrence
  | written (manager : ManagerId) (task : Task) (aim : Aim) :
      occurrence.event = .call (.manage manager task) →
      Writes manager aim occurrence.before occurrence.after → Move given occurrence
  | committed (manager : ManagerId) (sets : WorkingSets) :
      occurrence.event = .call (.manage manager .commit) →
      occurrence.before.transactions[manager]? = some sets →
      Committed given manager sets occurrence.before occurrence.after → Move given occurrence

theorem move_of_quiet (ledger : Ledger given occurrence.before)
    (tidy : Tidy given occurrence.before) (quiet : Quiet occurrence.before occurrence.after) :
    Move given occurrence :=
  .rested (.ofQuiet ledger tidy quiet) (fun _ _ => quiet.cached) (fun _ => quiet.directory)
    (.inr (.ofQuiet tidy quiet))

theorem move_of_begin (ledger : Ledger given before) (tidy : Tidy given before) :
    Move given ⟨before, .call (.manage manager .begin)⟩ := by
  rcases begin_after manager before with same | ⟨absent, opened⟩
  · refine move_of_quiet ledger tidy ?_
    show Quiet before ((begin manager).run.run before).2
    rw [same]
    exact .refl before
  · generalize begins : Occurrence.mk before (.call (.manage manager .begin)) = occurrence
    have start : occurrence.before = before := begins ▸ rfl
    have after : occurrence.after = Manager.opened manager before := begins ▸ opened
    refine .rested ?_ (fun _ _ => ?_) (fun _ => ?_) (.inr ?_)
    all_goals rw [start, after]
    · exact .ofOpened ledger tidy absent
    · exact id
    · rfl
    · exact .ofObjects rfl

/-- A commit that is answered does its work. -/
theorem committed_of_event (ledger : Ledger given occurrence.before)
    (tidy : Tidy given occurrence.before) (answered : occurrence.CommitsAnswered)
    (called : occurrence.event = .call (.manage manager .commit))
    (opened : occurrence.before.transactions[manager]? = some sets) :
    Committed given manager sets occurrence.before occurrence.after := by
  have ensured := ensures_commit tidy opened (ledger.recorded opened)
  have next : occurrence.after = ((commit manager).run.run occurrence.before).2 := by
    unfold Occurrence.after
    rw [called]
    rfl
  rcases result : (commit manager).run.run occurrence.before with ⟨fault | _, after⟩
  · have outage := ensured.of_error result
    rw [answered manager fault called (by rw [result])] at outage
    exact nomatch outage
  · rw [next, result]
    exact ensured.of_ok result

theorem move_of_commit (ledger : Ledger given before) (tidy : Tidy given before)
    (answered : Occurrence.CommitsAnswered ⟨before, .call (.manage manager .commit)⟩) :
    Move given ⟨before, .call (.manage manager .commit)⟩ := by
  cases opened : before.transactions[manager]? with
  | none =>
    have same : ((commit manager).run.run before).2 = before :=
      ((ensures_commit_closed opened).mono (fun _ _ => False.elim) fun _ _ => And.right).after
    refine move_of_quiet ledger tidy ?_
    show Quiet before ((commit manager).run.run before).2
    rw [same]
    exact .refl before
  | some sets =>
    exact .committed manager sets rfl opened (committed_of_event ledger tidy answered rfl opened)

/-- **Every orderly event rests, writes or commits.** -/
theorem move_of_event (ledger : Ledger given occurrence.before)
    (tidy : Tidy given occurrence.before) (orderly : Orderly occurrence) :
    Move given occurrence := by
  obtain ⟨before, event⟩ := occurrence
  cases event with
  | outages failing => exact move_of_quiet ledger tidy (.of_same rfl rfl rfl rfl rfl rfl)
  | graph objects => exact move_of_quiet ledger tidy (.of_same rfl rfl rfl rfl rfl rfl)
  | call made =>
    cases made with
    | ask question => exact move_of_quiet ledger tidy (question.keeps.after before)
    | regroup change =>
      have regroups := ensures_regroup tidy (orderly.sound change rfl) change
      refine .rested (.ofRegroups ledger tidy regroups) (fun _ _ found => ?_)
        (fun noChange => absurd rfl (noChange change)) (.inr ?_)
      · rcases regroups with quiet | ⟨middle, quiet, regrouped⟩
        · exact quiet.cached found
        · exact regrouped.entries ▸ quiet.cached found
      · rcases regroups with quiet | ⟨middle, quiet, regrouped⟩
        · exact .ofQuiet tidy quiet
        · exact (Relisted.ofQuiet tidy quiet).trans (.ofObjects regrouped.objects) quiet.directory
    | clearCache =>
      exact .rested (.ofCleared ledger) (fun noClearing => absurd rfl noClearing) (fun _ => rfl)
        (.inl (blank_clear before.cache))
    | manage manager task =>
      cases boundary : task.isBoundary with
      | false =>
        obtain ⟨aim, writes⟩ := task.writes boundary ledger.numbered
          (orderly.agree manager task rfl) fun _ => ledger.agrees_seen
        exact .written manager task aim rfl writes
      | true =>
        cases task with
        | begin =>
          exact move_of_begin ledger tidy
        | commit => exact move_of_commit ledger tidy orderly.answered
        | rollback => exact absurd rfl (orderly.noRollback manager)
        | _ => exact nomatch boundary

/-! ### What is kept by every event -/

/-- A commit has put the entry into the cache although it was removed and nobody is about to take
it out. -/
def RevivedBy (occurrence : Occurrence) (entry : Entry) : Prop :=
  ∃ manager sets, occurrence.event = .call (.manage manager .commit) ∧
    occurrence.before.transactions[manager]? = some sets ∧ sets.Adds entry ∧
      ¬ occurrence.before.store.Holds entry ∧ ¬ Leaving occurrence.before entry

/-- Some commit has revived the entry. -/
def Revived (past : List Occurrence) (entry : Entry) : Prop :=
  ∃ occurrence ∈ past, RevivedBy occurrence entry

theorem revived_cons : Revived (occurrence :: past) entry ↔
    RevivedBy occurrence entry ∨ Revived past entry := by
  simp [Revived]

/-- **Every orderly event keeps the cache current**, but for what it revives. -/
theorem Current.event {revived : Entry → Prop} (current : Current given revived occurrence.before)
    (orderly : Orderly occurrence) :
    ∃ more, Extends given more ∧
      Current more (fun entry => RevivedBy occurrence entry ∨ revived entry) occurrence.after := by
  cases move_of_event current.ledger current.tidy orderly with
  | rested rested _ _ _ =>
    exact ⟨given, id, (current.rested rested).mono fun _ => .inr⟩
  | written manager task aim _ writes =>
    obtain ⟨more, extends', current, _⟩ := current.writes writes (fun _ => True) trivial
      (fun _ _ => id) (fun _ _ => id) fun _ _ => id
    exact ⟨more, extends', current.mono fun _ => .inr⟩
  | committed manager sets called opened committed =>
    refine ⟨given, id, (current.committed opened committed).mono ?_⟩
    rintro entry (revives | ⟨adds, gone, stays⟩)
    · exact .inr revives
    · exact .inl ⟨manager, sets, called, opened, adds, gone, stays⟩

theorem resolved_congr (cache : after.cache = before.cache)
    (directory : after.directory = before.directory) : Resolved after ↔ Resolved before := by
  unfold Resolved
  rw [cache, directory]

theorem Manager.Writes.directory {aim : Aim} (writes : Writes manager aim before after) :
    after.directory = before.directory := by
  induction writes with
  | refl => rfl
  | tail _ step ih =>
    cases step with
    | quiet quiet => rw [quiet.directory, ih]
    | created created => rw [created.directory, ih]
    | deleted deleted => rw [deleted.directory, ih]

/-- The directory stays sound. -/
theorem sound_of_event (ledger : Ledger given occurrence.before)
    (tidy : Tidy given occurrence.before) (orderly : Orderly occurrence)
    (sound : occurrence.before.directory.Sound) : occurrence.after.directory.Sound := by
  cases move_of_event ledger tidy orderly with
  | rested rested _ _ _ => exact rested.sound sound
  | written manager task aim _ writes => exact writes.directory ▸ sound
  | committed manager sets _ _ committed => exact committed.reworked.directory ▸ sound

/-- While the groups stay the same, object projections name the users of the directory. -/
theorem resolved_of_event {revived : Entry → Prop}
    (current : Current given revived occurrence.before) (orderly : Orderly occurrence)
    (noChange : occurrence.NoGroupChange) (resolved : Resolved occurrence.before) :
    Resolved occurrence.after := by
  cases move_of_event current.ledger current.tidy orderly with
  | rested _ _ directory listed =>
    rcases listed with blank | relisted
    · exact blank.resolved
    · exact relisted.resolved (directory noChange) resolved
  | written manager task aim _ writes =>
    obtain ⟨_, _, _, kept⟩ := current.writes writes Resolved resolved
      (fun current quiet => Resolved.quiet current.tidy quiet)
      (fun _ created => (resolved_congr created.cache created.directory).mpr)
      fun _ deleted => (resolved_congr deleted.cache deleted.directory).mpr
    exact kept
  | committed manager sets _ _ committed => exact committed.reworked.resolved resolved

/-! ### Additions that stay -/

/-- What the manager has added in an open transaction is stored. -/
def Owned (manager : ManagerId) (service : Service) : Prop :=
  ∀ entry, AddedBy manager service entry → service.store.Holds entry

namespace Owned

/-- An addition that is stored is not revived. -/
theorem not_revivedBy (owned : ∀ manager, Owned manager occurrence.before) :
    ¬ RevivedBy occurrence entry := by
  rintro ⟨manager, sets, _, opened, adds, gone, _⟩
  exact gone (owned manager entry ⟨sets, opened, adds⟩)

theorem congr (owned : Owned manager before)
    (same : after.transactions[manager]? = before.transactions[manager]?)
    (holds : ∀ entry, AddedBy manager before entry → before.store.Holds entry →
      after.store.Holds entry) : Owned manager after := by
  intro entry added
  have earlier := (addedBy_congr same).mp added
  exact holds entry earlier (owned entry earlier)

/-- What a manager adds is stored, and what it deletes is no longer among its additions. -/
theorem writes {revived : Entry → Prop} {aim : Aim} (owned : Owned manager before)
    (current : Current given revived before) (writes : Writes manager aim before after) :
    Owned manager after := by
  refine (current.writes writes (Owned manager) owned ?_ ?_ ?_).elim fun _ kept => kept.2.2
  · intro given before after _ quiet owned
    have untouched := Untouched.ofQuiet quiet
    exact owned.congr (by rw [untouched.transactions]) fun _ _ => untouched.holds_iff.mpr
  · intro given sets entry before after current created owned other added
    rw [current.ledger.holds_created created]
    rw [addedBy_created current.ledger created] at added
    exact added.imp And.right (owned other)
  · intro given sets entry before after current deleted owned other added
    rw [current.ledger.holds_deleted deleted]
    rw [addedBy_deleted current.ledger deleted] at added
    exact ⟨owned other added.1, fun same => added.2 ⟨rfl, same⟩⟩

/-- **While nobody deletes what others have added, additions stay stored.** -/
theorem event {revived : Entry → Prop} (owned : ∀ manager, Owned manager occurrence.before)
    (current : Current given revived occurrence.before) (orderly : Orderly occurrence)
    (spares : occurrence.SparesOpenGrants) (actor : ManagerId) :
    Owned actor occurrence.after := by
  cases move_of_event current.ledger current.tidy orderly with
  | rested rested _ _ _ =>
    rintro entry ⟨sets, opened, adds⟩
    rcases rested.opened opened with earlier | rfl
    · exact rested.holds_iff.mpr (owned actor entry ⟨sets, earlier, adds⟩)
    · exact nomatch Std.ExtTreeMap.getElem?_empty.symm.trans adds
  | written manager task aim called writes =>
    by_cases own : manager = actor
    · subst own
      exact (owned manager).writes current writes
    · refine (owned actor).congr (writes.others own) fun entry ⟨sets, opened, adds⟩ holds => ?_
      have listed := (current.ledger.recorded opened).mem_added.mpr adds
      exact spares manager task called actor sets (Ne.symm own) opened entry listed holds
  | committed manager sets _ _ committed =>
    have untouched := committed.untouched
    rintro entry ⟨sets, opened, adds⟩
    rw [committed.lookup_transactions] at opened
    split at opened
    · exact nomatch opened
    · exact untouched.holds_iff.mpr (owned actor entry ⟨sets, opened, adds⟩)

end Owned

/-! ### Entries that were revived -/

/-- The entry is gone for good, and it is still remembered. -/
structure Lost (service : Service) (entry : Entry) : Prop where
  gone : ¬ service.store.Holds entry
  stays : ¬ Leaving service entry
  kept : service.cache.entries[entry.id]? = some entry

/-- What is remembered under the number of an entry is the entry that was given out. -/
theorem kept_of_isSome (tidy : Tidy given service) (isGiven : given entry.id = some entry)
    (found : service.cache.entries[entry.id]?.isSome = true) :
    service.cache.entries[entry.id]? = some entry := by
  obtain ⟨kept, found⟩ := Option.isSome_iff_exists.mp found
  rw [found, ← isGiven, tidy.kept found]

namespace Lost

variable {revived : Entry → Prop}

theorem refers (lost : Lost service entry) : Refers service entry := .inl ⟨_, lost.kept⟩

theorem isGiven (lost : Lost service entry) (current : Current given revived service) :
    given entry.id = some entry :=
  current.tidy.kept lost.kept

theorem rested (lost : Lost before entry) (current : Current given revived before)
    (rested : Rested given before after)
    (cached : after.cache.entries[entry.id]?.isSome = true) : Lost after entry := by
  refine ⟨mt rested.holds_iff.mp lost.gone, ?_,
    kept_of_isSome rested.tidy (lost.isGiven current) cached⟩
  rintro ⟨actor, sets, opened, drops⟩
  rcases rested.opened opened with earlier | rfl
  · exact lost.stays ⟨actor, sets, earlier, drops⟩
  · rcases drops with found | found
    all_goals exact nomatch Std.ExtTreeMap.getElem?_empty.symm.trans found

theorem writes {aim : Aim} (lost : Lost before entry) (current : Current given revived before)
    (writes : Writes manager aim before after) : Lost after entry := by
  refine (current.writes writes (Lost · entry) lost ?_ ?_ ?_).elim fun _ kept => kept.2.2
  · intro given before after current quiet lost
    refine lost.rested current (.ofQuiet current.ledger current.tidy quiet) (quiet.cached ?_)
    rw [lost.kept]
    rfl
  · intro given sets created before after current creation lost
    refine ⟨?_, ?_, by rw [creation.cache, lost.kept]⟩
    · rw [current.ledger.holds_created creation]
      rintro (rfl | holds)
      · have fresh : given entry.id = none := current.ledger.fresh creation.number
        exact nomatch fresh.symm.trans (lost.isGiven current)
      · exact lost.gone holds
    · rintro ⟨actor, dropped⟩
      exact lost.stays ⟨actor, (droppedBy_created current.ledger creation).mp dropped⟩
  · intro given sets deleted before after current deletion lost
    refine ⟨?_, ?_, by rw [deletion.cache, lost.kept]⟩
    · rw [current.ledger.holds_deleted deletion]
      exact fun holds => lost.gone holds.1
    · rintro ⟨actor, dropped⟩
      rcases (droppedBy_deleted current.ledger deletion).mp dropped with ⟨_, rfl⟩ | dropped
      · exact lost.gone deletion.stored
      · exact lost.stays ⟨actor, dropped⟩

/-- What does not leave is not dropped either. -/
theorem not_dropsId (current : Current given revived before)
    (opened : before.transactions[manager]? = some sets) (isGiven : given entry.id = some entry)
    (stays : ¬ Leaving before entry) : ¬ sets.DropsId entry.id := by
  intro dropsId
  have drops := (current.ledger.recorded opened).drops_of_dropsId isGiven dropsId
  exact stays ⟨manager, sets, opened, drops⟩

/-- **A lost entry stays lost** while the cache is not cleared. -/
theorem event (lost : Lost occurrence.before entry)
    (current : Current given revived occurrence.before) (orderly : Orderly occurrence)
    (noClearing : occurrence.NoClearing) : Lost occurrence.after entry := by
  have remembered : occurrence.before.cache.entries[entry.id]?.isSome = true := by
    rw [lost.kept]
    rfl
  cases move_of_event current.ledger current.tidy orderly with
  | rested rested cached _ _ => exact lost.rested current rested (cached noClearing remembered)
  | written manager task aim _ writes => exact lost.writes current writes
  | committed manager sets _ opened committed =>
    have notDropped := not_dropsId current opened (lost.isGiven current) lost.stays
    refine ⟨mt committed.untouched.holds_iff.mp lost.gone,
      not_leaving_of_committed committed lost.stays, ?_⟩
    exact kept_of_isSome committed.reworked.tidy (lost.isGiven current)
      (committed.reworked.cached notDropped remembered)

/-- **What a commit revives is lost.** -/
theorem ofRevivedBy (revives : RevivedBy occurrence entry)
    (current : Current given revived occurrence.before) (orderly : Orderly occurrence) :
    Lost occurrence.after entry := by
  obtain ⟨manager, sets, called, opened, adds, gone, stays⟩ := revives
  have committed := committed_of_event current.ledger current.tidy orderly.answered called opened
  have isGiven := (current.ledger.recorded opened).added adds
  have notDropped := not_dropsId current opened isGiven stays
  refine ⟨mt committed.untouched.holds_iff.mp gone, not_leaving_of_committed committed stays, ?_⟩
  exact kept_of_isSome committed.reworked.tidy isGiven (committed.cached adds notDropped)

end Lost

end BookingAccess
