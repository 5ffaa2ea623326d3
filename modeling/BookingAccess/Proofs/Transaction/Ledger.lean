/-
**The ledger of entries.**

A number is given out once. What the store holds and what open transactions have recorded are
entries as they were given out, so an entry that was removed never comes back.

* `Ledger`: the store and the transactions keep to what was given out;
* `Ledger.created`, `Ledger.deleted` and so on: every event keeps it;
* `accounted_of_run`: after a run, everything that was ever stored was given out.
-/

import BookingAccess.Proofs.Consequence

namespace BookingAccess

open Service Manager

variable {given more : EntryId → Option Entry} {manager : ManagerId} {sets : WorkingSets}
  {before after service : Service} {entry other : Entry}

/-- The store and the open transactions know entries as they were given out, each under its own
number, and what was removed is gone. -/
structure Ledger (given : EntryId → Option Entry) (service : Service) : Prop where
  own : ∀ {id entry}, given id = some entry → entry.id = id
  bound : ∀ {id entry}, given id = some entry → id ≤ service.store.lastId
  stored : ∀ {id entry}, service.store.get? id = some entry → given id = some entry
  recorded : ∀ {manager : ManagerId} {sets}, service.transactions[manager]? = some sets →
    sets.Recorded given
  gone : ∀ {manager : ManagerId} {sets}, service.transactions[manager]? = some sets →
    ∀ {entry}, sets.Drops entry → ¬ service.store.Holds entry

/-- The manager has the entry among its additions. -/
def AddedBy (manager : ManagerId) (service : Service) (entry : Entry) : Prop :=
  ∃ sets, service.transactions[manager]? = some sets ∧ sets.Adds entry

/-- The manager has removed the entry. -/
def DroppedBy (manager : ManagerId) (service : Service) (entry : Entry) : Prop :=
  ∃ sets, service.transactions[manager]? = some sets ∧ sets.Drops entry

namespace Ledger

theorem numbered (ledger : Ledger given service) : service.store.Numbered := fun _ _ found =>
  have isGiven := ledger.stored found
  ⟨ledger.own isGiven, ledger.bound isGiven⟩

/-- What was given out agrees with the store. -/
theorem agrees (ledger : Ledger given service) (isGiven : given entry.id = some entry) :
    service.store.Agrees entry :=
  fun _ found => Option.some.inj ((ledger.stored found).symm.trans isGiven)

/-- What a manager sees was given out. -/
theorem given_of_seen (ledger : Ledger given service) (seen : Sees manager service entry) :
    given entry.id = some entry := by
  rcases seen with holds | ⟨sets, opened, listed⟩
  · exact ledger.stored holds
  · have recorded := ledger.recorded opened
    exact recorded.added (recorded.mem_added.mp listed)

theorem agrees_seen (ledger : Ledger given service) (seen : Sees manager service entry) :
    service.store.Agrees entry :=
  ledger.agrees (ledger.given_of_seen seen)

/-- What a transaction has dropped is gone, and so is its number. -/
theorem not_dropsId_of_holds (ledger : Ledger given service)
    (opened : service.transactions[manager]? = some sets) (holds : service.store.Holds entry) :
    ¬ sets.DropsId entry.id := by
  intro dropsId
  have drops := (ledger.recorded opened).drops_of_dropsId (ledger.stored holds) dropsId
  exact ledger.gone opened drops holds

/-- The next number is new. -/
theorem fresh (ledger : Ledger given service) {id : EntryId}
    (next : id = service.store.lastId + 1) : given id = none := by
  cases isGiven : given id with
  | none => rfl
  | some entry =>
    have := ledger.bound isGiven
    exact absurd (next ▸ this : service.store.lastId + 1 ≤ service.store.lastId)
      (Nat.not_succ_le_self _)

/-- After an entry was created it is stored, and so is whatever was stored before. -/
theorem holds_created (ledger : Ledger given before)
    (created : Created manager sets entry before after) :
    after.store.Holds other ↔ other = entry ∨ before.store.Holds other := by
  have fresh : given entry.id = none := ledger.fresh created.number
  unfold Store.Holds
  rw [created.lookup]
  split
  · rename_i same
    refine ⟨fun found => .inl (Option.some.inj found).symm, ?_⟩
    rintro (rfl | found)
    · rfl
    · exact nomatch (same ▸ fresh).symm.trans (ledger.stored found)
  · rename_i different
    refine ⟨.inr, fun found => found.resolve_left ?_⟩
    rintro rfl
    exact different rfl

/-- After an entry was deleted all others are still stored. -/
theorem holds_deleted (ledger : Ledger given before)
    (deleted : Deleted manager sets entry before after) :
    after.store.Holds other ↔ before.store.Holds other ∧ other ≠ entry := by
  have isGiven : given entry.id = some entry := ledger.stored deleted.stored
  unfold Store.Holds
  rw [deleted.lookup]
  split
  · rename_i same
    refine ⟨fun never => (nomatch never), fun ⟨found, different⟩ => ?_⟩
    exact absurd (WorkingSets.eq_of_given isGiven (ledger.stored found) same) different
  · rename_i different
    refine ⟨fun found => ⟨found, ?_⟩, And.left⟩
    rintro rfl
    exact different rfl

/-! ### Events keep the ledger -/

theorem untouched (ledger : Ledger given before) (untouched : Untouched before after) :
    Ledger given after where
  own := ledger.own
  bound isGiven := untouched.lastId ▸ ledger.bound isGiven
  stored found := ledger.stored (untouched.get? _ ▸ found)
  recorded opened := ledger.recorded (untouched.transactions ▸ opened)
  gone {_ _} opened {_} drops holds := ledger.gone (untouched.transactions ▸ opened) drops
    (untouched.holds_iff.mp holds)

theorem opened (ledger : Ledger given service) : Ledger given (opened manager service) where
  own := ledger.own
  bound := ledger.bound
  stored := ledger.stored
  recorded {other sets} found := by
    have found : (service.transactions.insert manager .empty)[other]? = some sets := found
    rw [OrderedMap.lookup_insert] at found
    split at found
    · exact Option.some.inj found ▸ .empty ledger.own
    · exact ledger.recorded found
  gone {other sets} found {entry} drops := by
    have found : (service.transactions.insert manager .empty)[other]? = some sets := found
    rw [OrderedMap.lookup_insert] at found
    split at found
    · obtain rfl := Option.some.inj found
      simp [WorkingSets.Drops, WorkingSets.Removes, WorkingSets.Cancels, WorkingSets.empty] at drops
    · exact ledger.gone found drops

theorem closed (ledger : Ledger given service) : Ledger given (Manager.closed manager service) := by
  have still {other : ManagerId} {sets : WorkingSets}
      (found : (Manager.closed manager service).transactions[other]? = some sets) :
      service.transactions[other]? = some sets := by
    have found : (service.transactions.erase manager)[other]? = some sets := found
    rw [OrderedMap.lookup_erase] at found
    split at found
    · exact nomatch found
    · exact found
  exact ⟨ledger.own, ledger.bound, ledger.stored, fun found => ledger.recorded (still found),
    fun found => ledger.gone (still found)⟩

theorem created (ledger : Ledger given before) (created : Created manager sets entry before after) :
    Ledger (giveOut given entry) after := by
  have fresh : given entry.id = none := ledger.fresh created.number
  have isGiven : giveOut given entry entry.id = some entry := if_pos rfl
  have recorded := ledger.recorded created.opened
  have notRemoved := recorded.removed_fresh fresh
  have own {id : EntryId} {other : Entry} (known : giveOut given entry id = some other) :
      other.id = id := by
    unfold giveOut at known
    split at known
    · exact Option.some.inj known ▸ ‹entry.id = id›
    · exact ledger.own known
  refine ⟨own, ?_, ?_, ?_, ?_⟩
  · intro id other known
    rw [created.lastId]
    unfold giveOut at known
    split at known
    · subst id
      exact Nat.le_of_eq created.number
    · exact Nat.le_succ_of_le (ledger.bound known)
  · intro id other found
    rw [created.lookup] at found
    unfold giveOut
    split at found
    · exact (if_pos ‹_›).trans found
    · exact (if_neg ‹_›).trans (ledger.stored found)
  · intro other others found
    rw [created.transactions, OrderedMap.lookup_insert] at found
    split at found
    · exact Option.some.inj found ▸
        (recorded.mono (giveOut_extends fresh) own).add isGiven notRemoved
    · exact (ledger.recorded found).mono (giveOut_extends fresh) own
  · intro other others found dropped drops holds
    -- What was dropped was given out, so it is not the new entry.
    have known {sets : WorkingSets} (recorded : sets.Recorded given) (drops : sets.Drops dropped)
        (gone : ¬ before.store.Holds dropped) : False := by
      rcases (ledger.holds_created created).mp holds with rfl | held
      · exact nomatch fresh.symm.trans (recorded.given_of_drops drops)
      · exact gone held
    rw [created.transactions, OrderedMap.lookup_insert] at found
    split at found
    · obtain rfl := Option.some.inj found
      rw [WorkingSets.add_of_fresh notRemoved] at drops
      exact known recorded drops (ledger.gone created.opened drops)
    · exact known (ledger.recorded found) drops (ledger.gone found drops)

theorem deleted (ledger : Ledger given before) (deleted : Deleted manager sets entry before after) :
    Ledger given after := by
  have recorded := ledger.recorded deleted.opened
  have isGiven : given entry.id = some entry := ledger.stored deleted.stored
  refine ⟨ledger.own, fun known => deleted.lastId ▸ ledger.bound known, ?_, ?_, ?_⟩
  · intro id other found
    rw [deleted.lookup] at found
    split at found
    · exact nomatch found
    · exact ledger.stored found
  · intro other others found
    rw [deleted.transactions, OrderedMap.lookup_insert] at found
    split at found
    · exact Option.some.inj found ▸ recorded.remove isGiven
    · exact ledger.recorded found
  · intro other others found dropped drops holds
    obtain ⟨held, different⟩ := (ledger.holds_deleted deleted).mp holds
    rw [deleted.transactions, OrderedMap.lookup_insert] at found
    split at found
    · obtain rfl := Option.some.inj found
      have drops := (WorkingSets.drops_remove recorded isGiven).mp drops
      exact ledger.gone deleted.opened (drops.resolve_left different) held
    · exact ledger.gone found drops held

/-- A call that writes extends the ledger. What it gives out is stored when it ends: a call that
creates entries deletes none. -/
theorem writes {aim : Aim} (ledger : Ledger given before)
    (writes : Writes manager aim before after) :
    ∃ more, Extends given more ∧ Ledger more after ∧ ∀ id entry, more id = some entry →
      given id = some entry ∨ aim = .grant ∧ after.store.Holds entry := by
  induction writes with
  | refl => exact ⟨given, id, ledger, fun _ _ => .inl⟩
  | tail _ step ih =>
    obtain ⟨middle, extends', ledger, newlyGiven⟩ := ih
    cases step with
    | quiet quiet =>
      refine ⟨middle, extends', ledger.untouched (.ofQuiet quiet), fun id entry known => ?_⟩
      rw [(Untouched.ofQuiet quiet).holds_iff]
      exact newlyGiven id entry known
    | created created =>
      refine ⟨_, fun known => giveOut_extends (ledger.fresh created.number) (extends' known),
        ledger.created created, fun id entry known => ?_⟩
      rw [ledger.holds_created created]
      unfold giveOut at known
      split at known
      · exact .inr ⟨rfl, .inl (Option.some.inj known).symm⟩
      · exact (newlyGiven id entry known).imp_right (And.imp_right .inr)
    | deleted deleted =>
      refine ⟨middle, extends', ledger.deleted deleted, fun id entry known => ?_⟩
      exact (newlyGiven id entry known).imp_right fun ⟨grants, _⟩ => nomatch grants

/-- **Every event extends the ledger.** -/
theorem event {occurrence : Occurrence} (ledger : Ledger given occurrence.before)
    (agree : occurrence.EntriesAgree) :
    Consequence occurrence ∧ ∃ more, Extends given more ∧ Ledger more occurrence.after ∧
      ∀ id entry, more id = some entry →
        given id = some entry ∨ occurrence.after.store.Holds entry := by
  have consequence : Consequence occurrence :=
    consequence_of_event ledger.numbered agree fun _ _ => ledger.agrees_seen
  refine ⟨consequence, ?_⟩
  cases consequence with
  | steady steady =>
    exact ⟨given, id, ledger.untouched (.ofSteady steady), fun _ _ => .inl⟩
  | opened manager _ absent opened =>
    exact ⟨given, id, ledger.opened.untouched (.ofSteady opened), fun _ _ => .inl⟩
  | written manager task aim _ writes =>
    obtain ⟨more, extends', ledger, newlyGiven⟩ := ledger.writes writes
    exact ⟨more, extends', ledger, fun id entry known =>
      (newlyGiven id entry known).imp_right And.right⟩
  | closed manager closed =>
    exact ⟨given, id, ledger.closed.untouched (.ofSteady closed), fun _ _ => .inl⟩

end Ledger

/-! ### Who has added and removed an entry -/

theorem addedBy_congr (same : after.transactions[manager]? = before.transactions[manager]?) :
    AddedBy manager after entry ↔ AddedBy manager before entry := by
  unfold AddedBy
  rw [same]

theorem droppedBy_congr (same : after.transactions[manager]? = before.transactions[manager]?) :
    DroppedBy manager after entry ↔ DroppedBy manager before entry := by
  unfold DroppedBy
  rw [same]

/-- An entry that the manager has in its sets, whichever those are. -/
theorem addedBy_iff (opened : service.transactions[manager]? = some sets) :
    AddedBy manager service entry ↔ sets.Adds entry := by
  unfold AddedBy
  rw [opened]
  simp

theorem droppedBy_iff (opened : service.transactions[manager]? = some sets) :
    DroppedBy manager service entry ↔ sets.Drops entry := by
  unfold DroppedBy
  rw [opened]
  simp

/-- After an entry was created the manager has added it, besides what it had added before. -/
theorem addedBy_created (ledger : Ledger given before)
    (created : Created manager sets entry before after) {actor : ManagerId} :
    AddedBy actor after other ↔ actor = manager ∧ other = entry ∨ AddedBy actor before other := by
  by_cases own : actor = manager
  · subst own
    have fresh : given entry.id = none := ledger.fresh created.number
    have earlier := ledger.recorded created.opened
    have later := ledger.created created
    have opened : after.transactions[actor]? = some (sets.add entry) := by
      rw [created.transactions, OrderedMap.lookup_insert, if_pos rfl]
    rw [addedBy_iff opened, addedBy_iff created.opened, WorkingSets.adds_add
      (earlier.mono (giveOut_extends fresh) later.own) (if_pos rfl) (earlier.removed_fresh fresh)]
    simp
  · have same : after.transactions[actor]? = before.transactions[actor]? := by
      rw [created.transactions, OrderedMap.lookup_insert, if_neg (Ne.symm own)]
    rw [addedBy_congr same]
    simp [own]

theorem droppedBy_created (ledger : Ledger given before)
    (created : Created manager sets entry before after) {actor : ManagerId} :
    DroppedBy actor after other ↔ DroppedBy actor before other := by
  by_cases own : actor = manager
  · subst own
    have fresh : given entry.id = none := ledger.fresh created.number
    have opened : after.transactions[actor]? = some (sets.add entry) := by
      rw [created.transactions, OrderedMap.lookup_insert, if_pos rfl]
    rw [droppedBy_iff opened, droppedBy_iff created.opened,
      WorkingSets.add_of_fresh ((ledger.recorded created.opened).removed_fresh fresh)]
    rfl
  · exact droppedBy_congr
      (by rw [created.transactions, OrderedMap.lookup_insert, if_neg (Ne.symm own)])

theorem addedBy_deleted (ledger : Ledger given before)
    (deleted : Deleted manager sets entry before after) {actor : ManagerId} :
    AddedBy actor after other ↔
      AddedBy actor before other ∧ ¬ (actor = manager ∧ other = entry) := by
  by_cases own : actor = manager
  · subst own
    have opened : after.transactions[actor]? = some (sets.remove entry) := by
      rw [deleted.transactions, OrderedMap.lookup_insert, if_pos rfl]
    rw [addedBy_iff opened, addedBy_iff deleted.opened, WorkingSets.adds_remove
      (ledger.recorded deleted.opened) (ledger.stored deleted.stored)]
    simp
  · have same : after.transactions[actor]? = before.transactions[actor]? := by
      rw [deleted.transactions, OrderedMap.lookup_insert, if_neg (Ne.symm own)]
    rw [addedBy_congr same]
    simp [own]

theorem droppedBy_deleted (ledger : Ledger given before)
    (deleted : Deleted manager sets entry before after) {actor : ManagerId} :
    DroppedBy actor after other ↔
      actor = manager ∧ other = entry ∨ DroppedBy actor before other := by
  by_cases own : actor = manager
  · subst own
    have opened : after.transactions[actor]? = some (sets.remove entry) := by
      rw [deleted.transactions, OrderedMap.lookup_insert, if_pos rfl]
    rw [droppedBy_iff opened, droppedBy_iff deleted.opened, WorkingSets.drops_remove
      (ledger.recorded deleted.opened) (ledger.stored deleted.stored)]
    simp
  · have same : after.transactions[actor]? = before.transactions[actor]? := by
      rw [deleted.transactions, OrderedMap.lookup_insert, if_neg (Ne.symm own)]
    rw [droppedBy_congr same]
    simp [own]

/-! ### Runs -/

/-- The ledger has everything that was stored before. -/
structure Accounted (given : EntryId → Option Entry) (past : List Occurrence) (service : Service) :
    Prop extends Ledger given service where
  held : ∀ occurrence ∈ past, ∀ {entry}, occurrence.before.store.Holds entry →
    given entry.id = some entry

/-- At the start the ledger has what is stored. -/
theorem ledger_of_start (numbered : service.store.Numbered) (idle : service.Idle) :
    Ledger service.store.get? service where
  own found := (numbered _ _ found).1
  bound found := (numbered _ _ found).2
  stored := id
  recorded {manager _} opened := nomatch (idle manager).symm.trans opened
  gone {manager _} opened := nomatch (idle manager).symm.trans opened

/-- One event more. What is new in the ledger is stored when the event is over. -/
theorem Accounted.next {past : List Occurrence} {occurrence : Occurrence}
    (accounted : Accounted given past occurrence.before) (agree : occurrence.EntriesAgree) :
    ∃ more, Accounted more (occurrence :: past) occurrence.after ∧
      ∀ id entry, more id = some entry →
        given id = some entry ∨ occurrence.after.store.Holds entry := by
  obtain ⟨_, more, extends', ledger, newlyGiven⟩ := accounted.toLedger.event agree
  refine ⟨more, ⟨ledger, ?_⟩, newlyGiven⟩
  rintro other (_ | ⟨_, earlier⟩) entry holds
  · exact extends' (accounted.stored holds)
  · exact extends' (accounted.held other earlier holds)

/-- **After a run, everything that was ever stored is accounted for.** -/
theorem accounted_of_run {rule : Occurrence → Prop} {start : Service} {past : List Occurrence}
    (agree : ∀ occurrence, rule occurrence → occurrence.EntriesAgree)
    (numbered : start.store.Numbered) (idle : start.Idle) (run : Run rule start past service) :
    ∃ given, Accounted given past service := by
  induction run with
  | start => exact ⟨_, ledger_of_start numbered idle, fun _ never => nomatch never⟩
  | next event kept ruled ih =>
    obtain ⟨given, accounted⟩ := ih
    obtain ⟨more, accounted, -⟩ := accounted.next (agree _ ruled)
    exact ⟨more, accounted⟩

end BookingAccess
