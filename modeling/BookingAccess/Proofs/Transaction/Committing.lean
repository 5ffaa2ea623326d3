/-
**What a commit leaves.**

A commit works the additions of the transaction into the cache, and then everything that it removed
or added in vain out of it.

* `Reworked.mono`, `ensures_additions`, `ensures_removals`: one entry after another;
* `Committed`: what holds afterwards; `ensures_commit`: a commit ends so, or a collaborator failed.
-/

import BookingAccess.Proofs.Cache.Rework
import BookingAccess.Proofs.Transaction.WorkingSets
import BookingAccess.Proofs.Transaction.Writing

namespace BookingAccess

namespace Service

variable {given : EntryId → Option Entry} {told told' : Entry → Prop}
  {dropped dropped' : EntryId → Prop} {before after service : Service}

theorem Reworked.mono (reworked : Reworked given told dropped before after)
    (tells : ∀ entry, told entry → told' entry) (drops : ∀ id, dropped id → dropped' id) :
    Reworked given told' dropped' before after :=
  { reworked with
    refers := fun refers => (reworked.refers refers).imp_right (Or.imp_right (tells _))
    misses := fun holds stays => reworked.misses holds fun isDropped => stays (drops _ isDropped)
    missesOn := fun holds stays =>
      reworked.missesOn holds fun isDropped => stays (drops _ isDropped)
    cached := fun stays => reworked.cached fun isDropped => stays (drops _ isDropped)
    listed := reworked.listed.mono drops }

/-- Additions, one after another. -/
theorem ensures_additions {entries : List Entry} (tidy : Tidy given service)
    (isGiven : ∀ entry ∈ entries, given entry.id = some entry) :
    Ensures (entries.forM applyAddition) service
      (fun _ after => Reworked given (· ∈ entries) (fun _ => False) service after ∧
        ∀ entry ∈ entries, after.cache.entries[entry.id]?.isSome = true ∧
          (service.store.Holds entry →
            (∀ user, ¬ Misses after entry user) ∧ ¬ MissesOn after entry))
      (fun fault _ => fault.isOutage = true) := by
  refine (Ensures.forM
    (Reworked given (· ∈ entries) (fun _ => False) service)
    (fun entry after => Reworked given (· ∈ entries) (fun _ => False) service after →
      after.cache.entries[entry.id]?.isSome = true ∧ (service.store.Holds entry →
        (∀ user, ¬ Misses after entry user) ∧ ¬ MissesOn after entry))
    (tidy.reworked_of_quiet (.refl service)) fun entry member middle soFar => ?_).mono
      (fun _ _ ⟨reworked, done, _⟩ => ⟨reworked, fun entry member => done entry member reworked⟩)
      fun _ _ => id
  refine (ensures_applyAddition (fun _ => False) soFar.tidy member (isGiven entry member)
    not_false).mono ?_ fun _ _ => id
  rintro _ after ⟨step, isCached, served⟩
  refine ⟨soFar.trans step, fun _ => ⟨isCached, fun holds => served (soFar.holds_iff.mpr holds)⟩,
    fun other done _ => ?_⟩
  obtain ⟨wasCached, wasServed⟩ := done soFar
  refine ⟨step.cached not_false wasCached, fun holds => ?_⟩
  have holdsNow := soFar.holds_iff.mpr holds
  exact ⟨fun user lacks => (wasServed holds).1 user (step.misses holdsNow not_false lacks),
    fun lacks => (wasServed holds).2 (step.missesOn holdsNow not_false lacks)⟩

/-- Removals, one after another. -/
theorem ensures_removals (dropped : EntryId → Prop) {entries : List Entry}
    (tidy : Tidy given service)
    (isGiven : ∀ entry ∈ entries, given entry.id = some entry)
    (isDropped : ∀ entry ∈ entries, dropped entry.id) :
    Ensures (entries.forM applyRemoval) service
      (fun _ after => Reworked given (fun _ => False) dropped service after ∧
        ∀ entry ∈ entries, ¬ service.store.Holds entry → ¬ Refers after entry)
      (fun fault _ => fault.isOutage = true) := by
  refine (Ensures.forM
    (Reworked given (fun _ => False) dropped service)
    (fun entry after => Reworked given (fun _ => False) dropped service after →
      ¬ service.store.Holds entry → ¬ Refers after entry)
    (tidy.reworked_of_quiet (.refl service)) fun entry member middle soFar => ?_).mono
      (fun _ _ ⟨reworked, done, _⟩ => ⟨reworked, fun entry member => done entry member reworked⟩)
      fun _ _ => id
  refine (ensures_applyRemoval (fun _ => False) soFar.tidy (isDropped entry member)
    (isGiven entry member)).mono ?_ fun _ _ => id
  rintro _ after ⟨step, forgotten⟩
  refine ⟨soFar.trans step, fun _ gone => forgotten (mt soFar.holds_iff.mp gone),
    fun other done _ gone refers => ?_⟩
  rcases step.refers refers with earlier | holds | isTold
  · exact done soFar gone earlier
  · exact gone (soFar.holds_iff.mp holds)
  · exact isTold

end Service

namespace Manager

open Service

variable {manager : ManagerId} {given : EntryId → Option Entry} {sets : WorkingSets}
  {before after service : Service}

/-- The state once the transaction is closed. -/
def closed (manager : ManagerId) (service : Service) : Service :=
  { service with transactions := service.transactions.erase manager }

/-- What holds after a commit. -/
structure Committed (given : EntryId → Option Entry) (manager : ManagerId) (sets : WorkingSets)
    (before after : Service) : Prop where
  reworked : Reworked given sets.Adds sets.DropsId (closed manager before) after
  cached : ∀ {entry}, sets.Adds entry → ¬ sets.DropsId entry.id →
    after.cache.entries[entry.id]?.isSome = true
  served : ∀ {entry}, sets.Adds entry → ¬ sets.DropsId entry.id → before.store.Holds entry →
    (∀ user, ¬ Misses after entry user) ∧ ¬ MissesOn after entry
  forgotten : ∀ {entry}, sets.Drops entry → ¬ before.store.Holds entry → ¬ Refers after entry

/-- A commit closes the transaction of its manager and no other. -/
theorem Committed.lookup_transactions (committed : Committed given manager sets before after)
    (actor : ManagerId) : after.transactions[actor]? =
      if manager = actor then none else before.transactions[actor]? := by
  rw [committed.reworked.transactions]
  exact OrderedMap.lookup_erase _ _ _

/-- Closing a transaction leaves the cache as it is. -/
theorem closed_tidy (tidy : Tidy given service) : Tidy given (closed manager service) :=
  { tidy with }

/-- **A commit leaves the cache as it should be**, or reports a collaborator that failed. -/
theorem ensures_commit (tidy : Tidy given service)
    (opened : service.transactions[manager]? = some sets) (recorded : sets.Recorded given) :
    Ensures (commit manager) service
      (fun _ after => Committed given manager sets service after)
      (fun fault _ => fault.isOutage = true) := by
  unfold commit close
  simp only [ensures_bind, ensures_modify, ensures_pure, ensures_record]
  refine ensures_workingSets.mono ?_ ?_
  rotate_left
  · rintro _ _ ⟨_, absent, _⟩
    cases absent.symm.trans opened
  rintro current now ⟨found, same⟩
  rw [show current = sets from Option.some.inj (found.symm.trans opened), same]
  have start : Tidy given (closed manager service) := closed_tidy tidy
  -- First the additions.
  refine (ensures_additions start fun entry member => ?_).mono ?_ fun _ _ => id
  · exact recorded.added (recorded.mem_added.mp member)
  rintro _ first ⟨adding, added⟩
  have adding := adding.mono (fun _ member => recorded.mem_added.mp member)
    fun id (never : False) => (never.elim : sets.DropsId id)
  -- Then what was removed, and then what was added in vain.
  refine (ensures_removals sets.DropsId adding.tidy (fun entry member => ?_)
    fun entry member => ?_).mono ?_ fun _ _ => id
  · exact recorded.removed (recorded.mem_removed.mp member)
  · exact ⟨entry, .inl (recorded.mem_removed.mp member), rfl⟩
  rintro _ second ⟨removing, removed⟩
  refine (ensures_removals sets.DropsId removing.tidy (fun entry member => ?_)
    fun entry member => ?_).mono ?_ fun _ _ => id
  · exact recorded.cancelled (recorded.mem_cancelled.mp member)
  · exact ⟨entry, .inr (recorded.mem_cancelled.mp member), rfl⟩
  rintro _ third ⟨cancelling, cancelled⟩
  have dropping := removing.trans cancelling
  have holds {entry : Entry} : first.store.Holds entry ↔ service.store.Holds entry :=
    adding.holds_iff
  generalize AuditEvent.transactionCommitted _ _ :: third.trail = trail
  have recording : Reworked given (fun _ => False) sets.DropsId third
      { third with trail := trail } :=
    cancelling.tidy.reworked_of_quiet (.of_same rfl rfl rfl rfl rfl rfl)
  have later := dropping.trans recording
  refine ⟨adding.trans (later.mono (fun _ never => never.elim) fun _ => id), fun adds stays => ?_,
    fun adds stays isHeld => ?_, fun {entry} drops gone refers => ?_⟩
  · exact later.cached stays (added _ (recorded.mem_added.mpr adds)).1
  · obtain ⟨served, servedOn⟩ := (added _ (recorded.mem_added.mpr adds)).2 isHeld
    have isHeld := holds.mpr isHeld
    exact ⟨fun user lacks => served user (later.misses isHeld stays lacks),
      fun lacks => servedOn (later.missesOn isHeld stays lacks)⟩
  · have gone := mt holds.mp gone
    -- What was forgotten once does not come back.
    have stays {middle : Service} (step : Reworked given (fun _ => False) sets.DropsId middle
        { third with trail := trail }) (absent : ¬ middle.store.Holds entry)
        (forgotten : ¬ Refers middle entry) : False := by
      rcases step.refers refers with earlier | isHeld | never
      · exact forgotten earlier
      · exact absent isHeld
      · exact never
    rcases drops with isRemoved | isCancelled
    · refine stays (cancelling.trans recording) (mt removing.holds_iff.mp gone) ?_
      exact removed _ (recorded.mem_removed.mpr isRemoved) gone
    · refine stays recording (mt dropping.holds_iff.mp gone) ?_
      exact cancelled _ (recorded.mem_cancelled.mpr isCancelled)
        (mt removing.holds_iff.mp gone)

/-- Without a transaction a commit does nothing. -/
theorem ensures_commit_closed (absent : service.transactions[manager]? = none) :
    Ensures (commit manager) service (fun _ _ => False)
      (fun fault after => fault = .noTransaction ∧ after = service) := by
  unfold commit close
  simp only [ensures_bind]
  refine ensures_workingSets.mono ?_ fun _ _ ⟨noTransaction, _, same⟩ => ⟨noTransaction, same⟩
  rintro sets after ⟨opened, _⟩
  exact nomatch absent.symm.trans opened

end Manager

end BookingAccess
