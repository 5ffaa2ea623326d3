/-
**What working sets say of the store.**

At any moment of a transaction its working sets are the difference between the store at the
beginning and the store now, as long as nobody else changes the store.

* `Balanced`: the working sets are this difference; `Balanced.writes`: a call keeps them so;
* `begun_of_event`, `begun_of_run`: they are, from the beginning of a transaction to its end.
-/

import BookingAccess.Proofs.Replay
import BookingAccess.Proofs.Transaction.Ledger

namespace BookingAccess

open Service Manager

variable {given : EntryId → Option Entry} {manager : ManagerId} {sets : WorkingSets}
  {begun now : Store} {held : Entry → Prop} {before after service : Service} {entry : Entry}

/-- The working sets tell what has become of the entries since the transaction began. -/
structure Balanced (sets : WorkingSets) (begun : Store) (held : Entry → Prop) (now : Store) :
    Prop where
  added : ∀ entry, sets.Adds entry ↔ now.Holds entry ∧ ¬ begun.Holds entry
  removed : ∀ entry, sets.Removes entry ↔ begun.Holds entry ∧ ¬ now.Holds entry
  cancelled : ∀ entry, sets.Cancels entry ↔
    held entry ∧ ¬ begun.Holds entry ∧ ¬ now.Holds entry

namespace Balanced

theorem empty (same : ∀ entry, now.Holds entry ↔ begun.Holds entry) :
    Balanced .empty begun (fun _ => False) now := by
  refine ⟨fun entry => ?_, fun entry => ?_, fun entry => ?_⟩
  all_goals
    simp [WorkingSets.Adds, WorkingSets.Removes, WorkingSets.Cancels, WorkingSets.empty, same]

/-- What is stored now may count as held. -/
theorem hold (balanced : Balanced sets begun held now) :
    Balanced sets begun (fun entry => now.Holds entry ∨ held entry) now := by
  refine { balanced with cancelled := fun entry => (balanced.cancelled entry).trans ?_ }
  grind

theorem congr {later : Store} (balanced : Balanced sets begun held now)
    (same : ∀ entry, later.Holds entry ↔ now.Holds entry) : Balanced sets begun held later := by
  refine ⟨fun entry => ?_, fun entry => ?_, fun entry => ?_⟩
  · rw [balanced.added, same]
  · rw [balanced.removed, same]
  · rw [balanced.cancelled, same]

theorem created (balanced : Balanced sets begun held before.store) (ledger : Ledger given before)
    (created : Created manager sets entry before after)
    (begunGiven : ∀ {other}, begun.Holds other → given other.id = some other)
    (heldGiven : ∀ {other}, held other → given other.id = some other) :
    Balanced (sets.add entry) begun held after.store := by
  have later := ledger.created created
  have fresh : given entry.id = none := ledger.fresh created.number
  have isGiven : giveOut given entry entry.id = some entry := if_pos rfl
  have earlier := ledger.recorded created.opened
  have recorded := earlier.mono (giveOut_extends fresh) later.own
  have notRemoved := earlier.removed_fresh fresh
  have notBegun : ¬ begun.Holds entry := fun holds => nomatch fresh.symm.trans (begunGiven holds)
  have notHeld : ¬ held entry := fun wasHeld => nomatch fresh.symm.trans (heldGiven wasHeld)
  refine ⟨fun other => ?_, fun other => ?_, fun other => ?_⟩
  · rw [WorkingSets.adds_add recorded isGiven notRemoved, ledger.holds_created created,
      balanced.added]
    grind
  · rw [WorkingSets.removes_add notRemoved, ledger.holds_created created, balanced.removed]
    grind
  · rw [WorkingSets.cancels_add notRemoved, ledger.holds_created created, balanced.cancelled]
    grind

theorem deleted (balanced : Balanced sets begun held before.store) (ledger : Ledger given before)
    (deleted : Deleted manager sets entry before after) (wasHeld : held entry) :
    Balanced (sets.remove entry) begun held after.store := by
  have recorded := ledger.recorded deleted.opened
  have isGiven : given entry.id = some entry := ledger.stored deleted.stored
  have stored := deleted.stored
  have adds := balanced.added entry
  refine ⟨fun other => ?_, fun other => ?_, fun other => ?_⟩
  · rw [WorkingSets.adds_remove recorded isGiven, ledger.holds_deleted deleted, balanced.added]
    grind
  · rw [WorkingSets.removes_remove recorded isGiven, ledger.holds_deleted deleted,
      balanced.removed]
    grind
  · rw [WorkingSets.cancels_remove recorded isGiven, ledger.holds_deleted deleted,
      balanced.cancelled]
    grind

/-- **A call of the manager keeps the balance.** -/
theorem writes {aim : Aim} (balanced : Balanced sets begun held before.store)
    (ledger : Ledger given before) (opened : before.transactions[manager]? = some sets)
    (begunGiven : ∀ {other}, begun.Holds other → given other.id = some other)
    (heldGiven : ∀ {other}, held other → given other.id = some other)
    (heldNow : ∀ {other}, before.store.Holds other → held other)
    (writes : Writes manager aim before after) :
    ∃ sets, after.transactions[manager]? = some sets ∧ Balanced sets begun held after.store := by
  suffices ∃ more, Extends given more ∧ Ledger more after ∧
      ∃ sets, after.transactions[manager]? = some sets ∧ Balanced sets begun held after.store by
    obtain ⟨_, _, _, kept⟩ := this
    exact kept
  induction writes with
  | refl => exact ⟨given, id, ledger, sets, opened, balanced⟩
  | tail soFar step ih =>
    obtain ⟨more, extends', ledger, sets, opened, balanced⟩ := ih
    cases step with
    | quiet quiet =>
      have untouched := Untouched.ofQuiet quiet
      refine ⟨more, extends', ledger.untouched untouched, sets, ?_, ?_⟩
      · rw [untouched.transactions, opened]
      · exact balanced.congr fun _ => untouched.holds_iff
    | @created current entry _ _ created =>
      obtain rfl : current = sets := Option.some.inj (created.opened.symm.trans opened)
      refine ⟨_, fun known => giveOut_extends (ledger.fresh created.number) (extends' known),
        ledger.created created, current.add entry, ?_, ?_⟩
      · rw [created.transactions, OrderedMap.lookup_insert, if_pos rfl]
      · exact balanced.created ledger created (fun holds => extends' (begunGiven holds))
          fun wasHeld => extends' (heldGiven wasHeld)
    | @deleted current entry _ _ deleted =>
      obtain rfl : current = sets := Option.some.inj (deleted.opened.symm.trans opened)
      refine ⟨more, extends', ledger.deleted deleted, current.remove entry, ?_, ?_⟩
      · rw [deleted.transactions, OrderedMap.lookup_insert, if_pos rfl]
      · -- A call that deletes creates nothing, so the entry was there before the call.
        exact balanced.deleted ledger deleted (heldNow (Writes.within soFar deleted.stored))

end Balanced

/-! ### Runs -/

/-- The transaction of the manager began in this run, was open since, and its sets balance. -/
structure Begun (manager : ManagerId) (sets : WorkingSets) (past since : List Occurrence)
    (begun service : Service) : Prop where
  began : ∃ earlier, past = since ++ ⟨begun, .call (.manage manager .begin)⟩ :: earlier
  absent : begun.transactions[manager]? = none
  opened : ∀ occurrence ∈ since, IsOpen manager occurrence.before
  balanced : Balanced sets begun.store
    (fun entry => ∃ occurrence ∈ since, occurrence.before.store.Holds entry) service.store

/-- One event more. -/
theorem Begun.next {past since : List Occurrence} {begun : Service} {occurrence : Occurrence}
    (was : Begun manager sets past since begun occurrence.before)
    (opened : occurrence.before.transactions[manager]? = some sets) {later : WorkingSets}
    (balanced : Balanced later begun.store
      (fun entry => occurrence.before.store.Holds entry ∨
        ∃ earlier ∈ since, earlier.before.store.Holds entry) occurrence.after.store) :
    Begun manager later (occurrence :: past) (occurrence :: since) begun occurrence.after := by
  obtain ⟨earlier, rfl⟩ := was.began
  refine ⟨⟨earlier, rfl⟩, was.absent, ?_, ?_⟩
  · rintro other (_ | ⟨_, member⟩)
    · exact isOpen_of_some opened
    · exact was.opened other member
  · simpa only [List.mem_cons, exists_eq_or_imp] using balanced

/-- A call of the manager inside its transaction keeps the balance. -/
theorem Begun.writes {past since : List Occurrence} {begun : Service} {occurrence : Occurrence}
    {later : WorkingSets} {aim : Aim} (was : Begun manager sets past since begun occurrence.before)
    (accounted : Accounted given past occurrence.before)
    (writes : Writes manager aim occurrence.before occurrence.after)
    (wasOpen : occurrence.before.transactions[manager]? = some sets)
    (opened : occurrence.after.transactions[manager]? = some later) :
    Begun manager later (occurrence :: past) (occurrence :: since) begun occurrence.after := by
  obtain ⟨first, rfl⟩ := was.began
  have begunGiven {entry : Entry} (holds : begun.store.Holds entry) :
      given entry.id = some entry :=
    accounted.held ⟨begun, _⟩ (List.mem_append_right since List.mem_cons_self) holds
  have heldGiven {entry : Entry} (held : occurrence.before.store.Holds entry ∨
      ∃ other ∈ since, other.before.store.Holds entry) : given entry.id = some entry := by
    rcases held with holds | ⟨other, member, holds⟩
    · exact accounted.stored holds
    · exact accounted.held other (List.mem_append_left _ member) holds
  obtain ⟨found, isOpen, balanced⟩ := was.balanced.hold.writes accounted.toLedger wasOpen
    begunGiven heldGiven .inl writes
  obtain rfl : found = later := Option.some.inj (isOpen.symm.trans opened)
  exact was.next wasOpen balanced

/-- **An event keeps the balance**, unless it closes the transaction. -/
theorem begun_of_event {past : List Occurrence} {occurrence : Occurrence}
    (accounted : Accounted given past occurrence.before) (agree : occurrence.EntriesAgree)
    (spare : occurrence.OthersSpareStore manager)
    (was : ∀ sets, occurrence.before.transactions[manager]? = some sets →
      ∃ since begun, Begun manager sets past since begun occurrence.before)
    (opened : occurrence.after.transactions[manager]? = some sets) :
    ∃ since begun, Begun manager sets (occurrence :: past) since begun occurrence.after := by
  have still (same : occurrence.after.transactions[manager]? =
        occurrence.before.transactions[manager]?)
      (holds : ∀ entry, occurrence.after.store.Holds entry ↔
        occurrence.before.store.Holds entry) :
      ∃ since begun, Begun manager sets (occurrence :: past) since begun occurrence.after := by
    have opened := same.symm.trans opened
    obtain ⟨since, begun, was⟩ := was sets opened
    exact ⟨_, begun, was.next opened (was.balanced.hold.congr holds)⟩
  cases consequence_of_event accounted.numbered agree fun _ _ => accounted.agrees_seen with
  | steady steady =>
    exact still (by rw [steady.transactions]) fun _ => by rw [steady.store]
  | opened other begins absent steady =>
    have transactions : occurrence.after.transactions[manager]? =
        if other = manager then some .empty else occurrence.before.transactions[manager]? := by
      rw [← OrderedMap.lookup_insert]
      exact congrArg (·[manager]?) steady.transactions
    split at transactions
    · subst other
      obtain rfl : .empty = sets := Option.some.inj (transactions.symm.trans opened)
      have balanced : Balanced .empty occurrence.before.store (fun _ => False)
          occurrence.after.store := .empty fun _ => by rw [steady.store]; rfl
      refine ⟨[], occurrence.before, ⟨past, ?_⟩, absent, fun _ never => (nomatch never), ?_⟩
      · rw [← begins]
        rfl
      · simpa using balanced
    · exact still transactions fun _ => by rw [steady.store]; rfl
  | written other task aim called writes =>
    by_cases own : other = manager
    · subst other
      obtain ⟨earlier, wasOpen⟩ := Option.isSome_iff_exists.mp
        (writes.wasOpen (isOpen_of_some opened))
      obtain ⟨since, begun, was⟩ := was earlier wasOpen
      exact ⟨_, begun, was.writes accounted writes wasOpen opened⟩
    · have spared : occurrence.after.store = occurrence.before.store := by
        refine spare fun task' calledByManager => own ?_
        rw [called] at calledByManager
        cases calledByManager
        rfl
      exact still (writes.others own) fun _ => by rw [spared]
  | closed other steady =>
    have transactions : occurrence.after.transactions[manager]? =
        if other = manager then none else occurrence.before.transactions[manager]? := by
      rw [← OrderedMap.lookup_erase]
      exact congrArg (·[manager]?) steady.transactions
    split at transactions
    · exact nomatch transactions.symm.trans opened
    · exact still transactions fun _ => by rw [steady.store]; rfl

/-- Every open transaction of the manager began in the run, and its sets balance. -/
theorem begun_of_run {start : Service} {past : List Occurrence} (numbered : start.store.Numbered)
    (idle : start.Idle)
    (run : Run (fun occurrence => occurrence.EntriesAgree ∧ occurrence.OthersSpareStore manager)
      start past service)
    (opened : service.transactions[manager]? = some sets) :
    ∃ since begun, Begun manager sets past since begun service := by
  induction run generalizing sets with
  | start => exact nomatch (idle manager).symm.trans opened
  | next event kept ruled ih =>
    obtain ⟨given, accounted⟩ := accounted_of_run (fun _ => And.left) numbered idle kept
    exact begun_of_event accounted ruled.1 ruled.2 (fun _ => ih) opened

/-- **The working sets of an open transaction are what has changed since its beginning.** -/
theorem workingSets_eq_difference {start : Service} {past : List Occurrence}
    (numbered : start.store.Numbered) (idle : start.Idle)
    (run : Run (fun occurrence => occurrence.EntriesAgree ∧ occurrence.OthersSpareStore manager)
      start past service)
    (opened : service.transactions[manager]? = some sets) :
    ∃ since begun earlier, past = since ++ ⟨begun, .call (.manage manager .begin)⟩ :: earlier ∧
      begun.transactions[manager]? = none ∧
      (∀ occurrence ∈ since, IsOpen manager occurrence.before) ∧
      (∀ entry, entry ∈ sets.added.values ↔
        service.store.Holds entry ∧ ¬ begun.store.Holds entry) ∧
      (∀ entry, entry ∈ sets.removed.values ↔
        begun.store.Holds entry ∧ ¬ service.store.Holds entry) ∧
      (∀ entry, entry ∈ sets.cancelled.values ↔
        (∃ occurrence ∈ since, occurrence.before.store.Holds entry) ∧
          ¬ begun.store.Holds entry ∧ ¬ service.store.Holds entry) ∧
      (∀ id, ¬ (id ∈ sets.added ∧ id ∈ sets.removed)) ∧
      (∀ id, ¬ (id ∈ sets.added ∧ id ∈ sets.cancelled)) ∧
      ∀ id, ¬ (id ∈ sets.removed ∧ id ∈ sets.cancelled) := by
  obtain ⟨given, accounted⟩ := accounted_of_run (fun _ => And.left) numbered idle run
  obtain ⟨since, begun, ⟨earlier, split⟩, absent, wasOpen, balanced⟩ :=
    begun_of_run numbered idle run opened
  have recorded := accounted.recorded opened
  refine ⟨since, begun, earlier, split, absent, wasOpen, fun entry => ?_, fun entry => ?_,
    fun entry => ?_, ?_, ?_, ?_⟩
  · rw [recorded.mem_added, balanced.added]
  · rw [recorded.mem_removed, balanced.removed]
  · rw [recorded.mem_cancelled, balanced.cancelled]
  · refine WorkingSets.disjoint_of_given recorded.own recorded.added recorded.removed ?_
    exact fun entry adds removes =>
      ((balanced.added entry).mp adds).2 ((balanced.removed entry).mp removes).1
  · refine WorkingSets.disjoint_of_given recorded.own recorded.added recorded.cancelled ?_
    exact fun entry adds cancels =>
      ((balanced.cancelled entry).mp cancels).2.2 ((balanced.added entry).mp adds).1
  · refine WorkingSets.disjoint_of_given recorded.own recorded.removed recorded.cancelled ?_
    exact fun entry removes cancels =>
      ((balanced.cancelled entry).mp cancels).2.1 ((balanced.removed entry).mp removes).1

/-- In its second transaction a manager removes what it granted in the first, grants to two users,
takes one grant back, and fails to make another. -/
def grantEvents : List Event := [
  .call (.manage 0 .begin),
  .call (.manage 0 (.createEntry (.user "1") .sample .reader)),
  .call (.manage 0 .commit),
  .call (.manage 0 .begin),
  .call (.manage 0 (.deleteEntry ⟨1, .user "1", .sample, .reader⟩ false)),
  .call (.manage 0 (.createEntry (.user "2") .sample .reader)),
  .call (.manage 0 (.createEntry (.user "3") .sample .reader)),
  .call (.manage 0 (.deleteEntry ⟨3, .user "3", .sample, .reader⟩ false)),
  .outages { store := fun _ _ => some "unreachable" },
  .call (.manage 0 (.createEntry (.user "4") .sample .reader))]

theorem workingSets_after_grantEvents : ∃ (sets : WorkingSets) (begun : Service),
    (replay [] .sample grantEvents).2.transactions[0]? = some sets ∧
    (sets.added.keys, sets.removed.keys, sets.cancelled.keys) = ([2], [1], [3]) ∧
    begun.store.Holds ⟨1, .user "1", .sample, .reader⟩ ∧
    ∀ entry, entry ∈ sets.added.values ↔
      (replay [] .sample grantEvents).2.store.Holds entry ∧ ¬ begun.store.Holds entry := by
  have listed : (replay [] .sample grantEvents).2.transactions[0]?.map (fun sets =>
      (sets.added.keys, sets.removed.keys, sets.cancelled.keys)) = some ([2], [1], [3]) := by
    decide +kernel
  obtain ⟨sets, opened, keys⟩ := Option.map_eq_some_iff.mp listed
  have lists : (replay [] .sample grantEvents).2.transactions[0]?.any
      (⟨1, .user "1", .sample, .reader⟩ ∈ ·.removed.values) = true := by
    decide +kernel
  rw [opened, Option.any_some, decide_eq_true_eq] at lists
  obtain ⟨since, begun, _, _, _, _, added, removed, _⟩ :=
    workingSets_eq_difference Service.fresh_sample.numbered Service.fresh_sample.idle
      (Run.ofEvents (by decide +kernel)) opened
  exact ⟨sets, begun, opened, keys, ((removed _).mp lists).1, added⟩

end BookingAccess
