/-
**Transactions that leave the entries as they were.**

A transaction may grant and revoke, and others may ask meanwhile, so projections that are loaded in
between have what the transaction had added by then. If it ends with the entries that it began with,
the commit takes all of this out again, and every answer is as it was before the transaction began.

* `Underway`: what the working sets say of the entries that are new since the beginning;
* `alike_of_run`: while the old entries are stored, projections have the same of them;
* `alike_commit`: a commit that adds nothing leaves them alone;
* `alike_of_restored`, `same_answers_of_restored`: in the end everything is as before.
-/

import BookingAccess.Proofs.Answers.Alike
import BookingAccess.Proofs.Answers.Uncommitted
import BookingAccess.Proofs.Cache.Consistent
import BookingAccess.Proofs.Transaction.Balance

namespace BookingAccess

open Service Manager

variable {given : EntryId → Option Entry} {manager : ManagerId} {sets : WorkingSets}
  {among : EntryId → Prop} {origin before after service start : Service}
  {past : List Occurrence} {occurrence : Occurrence} {entry : Entry}

/-! ### While the transaction is open -/

/-- What may happen: nothing but calls of the manager and what reads. The manager hands over entries
as they are stored. -/
structure Occurrence.Inside (manager : ManagerId) (occurrence : Occurrence) : Prop where
  within : occurrence.event.isWithin manager = true
  noClearing : occurrence.NoClearing
  agree : occurrence.EntriesAgree

/-- The working sets tell what has become of the entries that were given out since the transaction
began in the state `origin`. -/
structure Underway (manager : ManagerId) (origin : Service) (given : EntryId → Option Entry)
    (sets : WorkingSets) (service : Service) : Prop where
  consistent : Consistent given service
  follows : origin.store.Follows service.store
  opened : service.transactions[manager]? = some sets
  begunGiven : ∀ {entry}, origin.store.Holds entry → given entry.id = some entry
  balanced : Balanced sets origin.store
    (fun entry => given entry.id = some entry ∧ origin.store.lastId < entry.id) service.store

theorem begun_eq (absent : before.transactions[manager]? = none) :
    begun manager before = opened manager before := by
  have begins : Ensures (begin manager) before
      (fun _ after => after = opened manager before)
      fun _ after => after = opened manager before := by
    unfold begin isActive
    simp only [ensures_bind, ensures_get, ensures_pure, Std.ExtTreeMap.contains_eq_isSome_getElem?,
      absent]
    rfl
  exact begins.after

namespace Underway

theorem ofBegin (consistent : Consistent given before)
    (absent : before.transactions[manager]? = none) :
    Underway manager before given .empty (begun manager before) := by
  rw [begun_eq absent]
  refine ⟨.ofRested (.ofOpened consistent.ledger consistent.tidy absent),
    .refl consistent.ledger.numbered, ?_, consistent.ledger.stored, ?_⟩
  · show (before.transactions.insert manager .empty)[manager]? = _
    rw [OrderedMap.lookup_insert, if_pos rfl]
  · have balanced : Balanced .empty before.store (fun _ => False) before.store :=
      .empty fun _ => Iff.rfl
    refine { balanced with cancelled := fun entry => (balanced.cancelled entry).trans ?_ }
    refine iff_of_false And.left fun ⟨⟨isGiven, isNew⟩, _⟩ => ?_
    exact Nat.not_lt.mpr (consistent.ledger.bound isGiven) isNew

theorem quiet (underway : Underway manager origin given sets before) (quiet : Quiet before after)
    (follows : origin.store.Follows after.store) : Underway manager origin given sets after where
  consistent := underway.consistent.quiet quiet
  follows := follows
  opened := quiet.transactions ▸ underway.opened
  begunGiven := underway.begunGiven
  balanced := underway.balanced.congr fun _ => (Untouched.ofQuiet quiet).holds_iff

/-- A call of the manager. What it has given out is stored, or it has taken it back at once. -/
theorem task {task : Task} (underway : Underway manager origin given sets before)
    (inside : task.isBoundary = false)
    (agree : ∀ entry ∈ task.arguments, before.store.Agrees entry) :
    ∃ more later,
      Underway manager origin more later ((task.action manager).run.run before).2 := by
  have ledger := underway.consistent.ledger
  obtain ⟨aim, more, writes, extends', consistent, newlyGiven⟩ :=
    underway.consistent.task inside agree
  have heldGiven {entry : Entry} (held : before.store.Holds entry ∨
      given entry.id = some entry ∧ origin.store.lastId < entry.id) : given entry.id = some entry :=
    held.elim ledger.stored And.left
  have follows : Stays origin.store.Follows before ((task.action manager).run.run before).2 :=
    (Task.manages inside).after before
  obtain ⟨later, opened, balanced⟩ := underway.balanced.hold.writes ledger underway.opened
    underway.begunGiven heldGiven .inl writes
  refine ⟨more, later, consistent, follows underway.follows, opened,
    fun holds => extends' (underway.begunGiven holds), ?_⟩
  refine { balanced with cancelled := fun entry => (balanced.cancelled entry).trans ?_ }
  constructor
  · rintro ⟨held, notBegun, notNow⟩
    refine ⟨?_, notBegun, notNow⟩
    rcases held with holds | ⟨isGiven, isNew⟩
    · exact ⟨extends' (ledger.stored holds), (underway.follows.holds holds).resolve_right notBegun⟩
    · exact ⟨extends' isGiven, isNew⟩
  · rintro ⟨⟨isGiven, isNew⟩, notBegun, notNow⟩
    exact ⟨.inr ⟨(newlyGiven _ _ isGiven).resolve_right notNow, isNew⟩, notBegun, notNow⟩

theorem event (underway : Underway manager origin given sets occurrence.before)
    (inside : occurrence.Inside manager) :
    ∃ more later, Underway manager origin more later occurrence.after := by
  rcases quiet_or_task_of_event inside.within inside.noClearing with quiet | ⟨task, within, called⟩
  · exact ⟨given, sets, underway.quiet quiet (Stays.event occurrence underway.follows)⟩
  · rw [Occurrence.after_eq_of_task called]
    exact underway.task within (inside.agree manager task called)

/-- **The working sets keep account of the whole transaction.** -/
theorem run (consistent : Consistent given before)
    (absent : before.transactions[manager]? = none)
    (run : Run (Occurrence.Inside manager) (begun manager before) past service) :
    ∃ more sets, Underway manager before more sets service := by
  induction run with
  | start => exact ⟨given, .empty, .ofBegin consistent absent⟩
  | next event _ inside ih =>
    obtain ⟨more, sets, underway⟩ := ih
    exact underway.event inside

end Underway

/-! ### What is shown of old entries -/

/-- While the old entries are stored, the store has the same under old numbers. -/
theorem Store.Follows.get?_eq {first store : Store} (follows : first.Follows store)
    (numbered : first.Numbered) (kept : ∀ entry, first.Holds entry → store.Holds entry)
    {id : EntryId} (old : id ≤ first.lastId) : store.get? id = first.get? id := by
  refine Option.ext fun entry => ⟨fun found => ?_, fun found => ?_⟩
  · obtain ⟨rfl, -⟩ := follows.numbered _ _ found
    exact follows.heldBefore old found
  · obtain ⟨rfl, -⟩ := numbered _ _ found
    exact kept entry found

/-- **While the old entries are stored, projections have the same of them.** -/
theorem alike_of_run (numbered : start.store.Numbered)
    (run : Run (Occurrence.Inside manager) start past service)
    (kept : ∀ entry, start.store.Holds entry → service.store.Holds entry) :
    Alike (· ≤ start.store.lastId) start service := by
  induction run with
  | start => exact refl _
  | @next past middle event run inside ih =>
    have follows : start.store.Follows middle.store := Stays.run run (.refl numbered)
    have step : middle.store.Follows (event.next middle).store :=
      Stays.event ⟨middle, event⟩ (.refl follows.numbered)
    -- An entry that is stored later on has not been away in between.
    have keptBefore (entry : Entry) (holds : start.store.Holds entry) : middle.store.Holds entry :=
      step.heldBefore (Nat.le_trans (numbered _ _ holds).2 follows.lastId) (kept entry holds)
    refine IsTrans.trans _ _ _ (ih keptBefore) ?_
    rcases quiet_or_surroundings_of_event inside.within inside.noClearing with quiet | same
    · exact .ofQuiet quiet
    · have later : start.store.Follows (event.next middle).store :=
        Stays.event ⟨middle, event⟩ follows
      exact alike_of_stored same.cache same.directory same.registry follows.numbered
        later.numbered fun id old => (later.get?_eq numbered kept old).trans
          (follows.get?_eq numbered keptBefore old).symm

/-- A commit that adds nothing changes nothing among entries that it does not remove. -/
theorem alike_commit (opened : service.transactions[manager]? = some sets)
    (adds : sets.added.values = []) (removes : ∀ entry ∈ sets.removed.values, ¬ among entry.id)
    (cancels : ∀ entry ∈ sets.cancelled.values, ¬ among entry.id) :
    KeepsAt (Alike among) service (commit manager) := by
  have rest : KeepsAt (Alike among) (closed manager service) (do
      sets.added.values.forM applyAddition
      sets.removed.values.forM applyRemoval
      sets.cancelled.values.forM applyRemoval
      record (.transactionCommitted sets.added.size sets.removed.size)) := by
    rw [adds]
    refine .bind .pure fun _ first _ => .bind (.forM fun entry member _ _ => ?_) fun _ second _ =>
      .bind (.forM fun entry member _ _ => ?_) fun _ _ _ => .ofQuiet ?_
    · exact alike_applyRemoval (removes entry member) _
    · exact alike_applyRemoval (cancels entry member) _
    · exact .of_same rfl rfl rfl rfl rfl rfl
  unfold commit
  refine ensures_bind.mpr (ensures_close.mono ?_ ?_)
  · rintro current _ ⟨found, rfl⟩
    obtain rfl : sets = current := Option.some.inj (opened.symm.trans found)
    have closes : Alike among service (closed manager service) :=
      ⟨rfl, fun _ _ _ => rfl, fun _ _ _ => rfl⟩
    exact Ensures.mono rest (fun _ _ => IsTrans.trans _ _ _ closes)
      fun _ _ => IsTrans.trans _ _ _ closes
  · rintro _ _ ⟨absent, _⟩
    exact nomatch absent.symm.trans opened

/-! ### What is shown of new entries -/

/-- The entry is stored, or the cache refers to it. -/
def Known (service : Service) (entry : Entry) : Prop :=
  Refers service entry ∨ service.store.Holds entry

/-- What is shown to a user is known. -/
theorem known_of_shownTo (tidy : Tidy given service) {user : UserId} {id : EntryId}
    (found : (service.shownTo user).entries[id]? = some entry) :
    entry.id = id ∧ given entry.id = some entry ∧ Known service entry := by
  unfold shownTo at found
  cases cached : service.cache.userProjections.value? user with
  | some projection =>
    rw [cached, Option.getD_some] at found
    have isGiven := (tidy.applies cached found).1
    obtain rfl := tidy.own isGiven
    exact ⟨rfl, isGiven, .inl (.inr (.inl ⟨user, projection, cached, .inl ⟨_, found⟩⟩))⟩
  | none =>
    rw [cached, Option.getD_none] at found
    obtain ⟨holds, -, isEntry⟩ := (lookup_userProjectionOf tidy.numbered).mp found
    exact ⟨isEntry, tidy.stored holds, .inr holds⟩

/-- What is shown on an object is known. -/
theorem known_of_shownOn (tidy : Tidy given service) {object : ObjectRef} {id : EntryId}
    {holder : ResolvedEntry} (found : (service.shownOn object).entries[id]? = some holder) :
    holder.entry.id = id ∧ given holder.entry.id = some holder.entry ∧
      Known service holder.entry := by
  unfold shownOn at found
  cases cached : service.cache.objectProjections.value? object with
  | some projection =>
    rw [cached, Option.getD_some] at found
    have isGiven := (tidy.located cached found).1
    obtain rfl := tidy.own isGiven
    exact ⟨rfl, isGiven, .inl (.inr (.inr ⟨object, projection, cached, _, holder, found, rfl⟩))⟩
  | none =>
    rw [cached, Option.getD_none] at found
    obtain ⟨holds, -, isEntry, -⟩ := (lookup_objectProjectionOf tidy.numbered).mp found
    exact ⟨isEntry, tidy.stored holds, .inr holds⟩

/-- No entry is known that was given out under a number behind this one. -/
def KnowsNoNew (given : EntryId → Option Entry) (bound : EntryId) (service : Service) : Prop :=
  ∀ entry : Entry, given entry.id = some entry → bound < entry.id → ¬ Known service entry

/-- **States that are alike among old entries and know no new ones are alike altogether.** -/
theorem Alike.ofOld {more : EntryId → Option Entry} {bound : EntryId}
    (old : Alike (· ≤ bound) before after) (tidy : Tidy given before) (tidyAfter : Tidy more after)
    (noNew : KnowsNoNew given bound before) (noNewAfter : KnowsNoNew more bound after) :
    Alike (fun _ => True) before after := by
  refine ⟨old.registry, fun user id _ => ?_, fun object id _ => ?_⟩
  · rcases Nat.lt_or_ge bound id with isNew | isOld
    · refine Option.ext fun entry => iff_of_false (fun found => ?_) fun found => ?_
      · obtain ⟨rfl, isGiven, known⟩ := known_of_shownTo tidyAfter found
        exact noNewAfter entry isGiven isNew known
      · obtain ⟨rfl, isGiven, known⟩ := known_of_shownTo tidy found
        exact noNew entry isGiven isNew known
    · exact old.toUser user id isOld
  · rcases Nat.lt_or_ge bound id with isNew | isOld
    · refine Option.ext fun holder => iff_of_false (fun found => ?_) fun found => ?_
      · obtain ⟨rfl, isGiven, known⟩ := known_of_shownOn tidyAfter found
        exact noNewAfter holder.entry isGiven isNew known
      · obtain ⟨rfl, isGiven, known⟩ := known_of_shownOn tidy found
        exact noNew holder.entry isGiven isNew known
    · exact old.onObject object id isOld

/-! ### After the commit -/

namespace Underway

section Restored

variable (underway : Underway manager origin given sets service)
  (numbered : origin.store.Numbered) (restored : service.store.entries = origin.store.entries)
include underway numbered restored

/-- Where the entries are those of the beginning, everything new was added in vain. -/
theorem restored_sets :
    sets.added.values = [] ∧ sets.removed.values = [] ∧
      ∀ entry, sets.Cancels entry ↔
        given entry.id = some entry ∧ origin.store.lastId < entry.id := by
  have recorded := underway.consistent.ledger.recorded underway.opened
  refine ⟨List.eq_nil_iff_forall_not_mem.mpr fun entry member => ?_,
    List.eq_nil_iff_forall_not_mem.mpr fun entry member => ?_, fun entry => ?_⟩
  · obtain ⟨holds, isNew⟩ := (underway.balanced.added entry).mp (recorded.mem_added.mp member)
    exact isNew ((Store.holds_congr restored).mp holds)
  · obtain ⟨held, gone⟩ := (underway.balanced.removed entry).mp (recorded.mem_removed.mp member)
    exact gone ((Store.holds_congr restored).mpr held)
  · rw [underway.balanced.cancelled, Store.holds_congr restored, and_self, and_iff_left_iff_imp]
    exact fun ⟨_, isNew⟩ holds => Nat.not_lt.mpr (numbered _ _ holds).2 isNew

/-- So the commit leaves old entries as they are shown. -/
theorem restored_alike :
    KeepsAt (Alike (· ≤ origin.store.lastId)) service (commit manager) := by
  obtain ⟨adds, removes, cancels_iff⟩ := underway.restored_sets numbered restored
  have recorded := underway.consistent.ledger.recorded underway.opened
  refine alike_commit underway.opened adds (fun entry member => ?_) fun entry member => ?_
  · rw [removes] at member
    exact absurd member List.not_mem_nil
  · exact Nat.not_le.mpr ((cancels_iff entry).mp (recorded.mem_cancelled.mp member)).2

/-- And it takes everything new out of the cache. -/
theorem restored_knowsNoNew (committed : Committed given manager sets service after) :
    KnowsNoNew given origin.store.lastId after := by
  intro entry isGiven isNew known
  obtain ⟨-, -, cancels_iff⟩ := underway.restored_sets numbered restored
  have notStored : ¬ service.store.Holds entry := fun holds =>
    Nat.not_lt.mpr (numbered _ _ ((Store.holds_congr restored).mp holds)).2 isNew
  rcases known with refers | holds
  · exact committed.forgotten (.inr ((cancels_iff entry).mpr ⟨isGiven, isNew⟩)) notStored refers
  · exact notStored (committed.untouched.holds_iff.mp holds)

end Restored

end Underway

theorem reaches_commit (manager : ManagerId) :
    Reaches AccessError.isOutage (commit manager) := by
  have closes : Reaches AccessError.isOutage (close manager) := by
    intro service reached
    unfold close
    simp only [ensures_bind, ensures_modify, ensures_pure]
    refine ensures_workingSets.mono ?_ ?_
    · rintro sets _ ⟨_, rfl⟩
      exact reached
    · rintro fault _ ⟨rfl, _, rfl⟩
      exact ⟨rfl, reached⟩
  unfold commit
  exact .bind closes fun sets => .bind (.forM reaches_applyAddition) fun _ =>
    .bind (.forM reaches_applyRemoval) fun _ => .bind (.forM reaches_applyRemoval) fun _ => .record

/-- **Nothing shown is different after a transaction that leaves the entries as they were.** -/
theorem alike_of_restored (consistent : Consistent given before)
    (absent : before.transactions[manager]? = none)
    (run : Run (Occurrence.Inside manager) (begun manager before) past service)
    (restored : service.store.entries = before.store.entries)
    (reachable : service.outages = .none) :
    ((commit manager).run.run service).1 = .ok () ∧
      ((commit manager).run.run service).2.outages = .none ∧
      (∃ more, Tidy more ((commit manager).run.run service).2) ∧
      Alike (fun _ => True) before ((commit manager).run.run service).2 := by
  have numbered := consistent.ledger.numbered
  obtain ⟨more, sets, underway⟩ := Underway.run consistent absent run
  have meanwhile : Alike (· ≤ before.store.lastId) before service := by
    rw [begun_eq absent] at run
    have begins : Alike (· ≤ before.store.lastId) before (opened manager before) :=
      ⟨rfl, fun _ _ _ => rfl, fun _ _ _ => rfl⟩
    exact IsTrans.trans _ _ _ begins
      (alike_of_run (show Store.Numbered (opened manager before).store from numbered) run
        fun _ => (Store.holds_congr restored).mpr)
  have ensured := ((ensures_commit underway.consistent.tidy underway.opened
    (underway.consistent.ledger.recorded underway.opened)).and
      (reaches_commit manager service reachable)).and (underway.restored_alike numbered restored)
  obtain ⟨_, answered, ⟨committed, reached⟩, atCommit⟩ :=
    (ensured.mono (fun _ _ => id) fun fault _ ⟨⟨outage, known, _⟩, _⟩ =>
      Bool.false_ne_true (known.symm.trans outage)).exists_answer
  have old : Alike (· ≤ before.store.lastId) before ((commit manager).run.run service).2 :=
    IsTrans.trans _ _ _ meanwhile atCommit
  have noNew : KnowsNoNew given before.store.lastId before := fun _ isGiven isNew =>
    absurd (consistent.ledger.bound isGiven) (Nat.not_le.mpr isNew)
  exact ⟨answered, reached, ⟨more, committed.reworked.tidy⟩,
    old.ofOld consistent.tidy committed.reworked.tidy noNew
      (underway.restored_knowsNoNew numbered restored committed)⟩

/-- **A transaction that leaves the entries as they were changes no answer.** -/
theorem same_answers_of_restored (consistent : Consistent given before)
    (absent : before.transactions[manager]? = none)
    (run : Run (Occurrence.Inside manager) (begun manager before) past service)
    (restored : service.store.entries = before.store.entries)
    (reachableBefore : before.outages = .none) (reachable : service.outages = .none) :
    ((commit manager).run.run service).1 = .ok () ∧ ∀ inquiry : Inquiry, ∃ answer,
      (inquiry.answer.run.run before).1 = .ok answer ∧
        (inquiry.answer.run.run ((commit manager).run.run service).2).1 = .ok answer := by
  obtain ⟨answered, reached, ⟨_, tidy⟩, alike⟩ :=
    alike_of_restored consistent absent run restored reachable
  refine ⟨answered, fun inquiry => ⟨_, inquiry.exists_answer reachableBefore, ?_⟩⟩
  rw [← inquiry.shown_of_alike consistent.tidy tidy alike]
  exact inquiry.exists_answer reached

end BookingAccess
