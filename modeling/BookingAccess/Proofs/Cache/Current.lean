/-
**A cache that is current.**

Between beginning and commit of a transaction the cache lags behind the store, and no further: it
may refer to an entry that an open transaction has removed, and it may miss one that an open
transaction has added. Only a commit may leave more behind, where it works in an addition that
another manager has removed already.

* `Current`: the cache lags behind only so;
* `Rested`: an event that leaves the store and the grants of open transactions alone;
* `Current.rested`, `Current.writes`, `Current.committed`: what an event may do keeps it so.
-/

import BookingAccess.Proofs.Transaction.Ledger

namespace BookingAccess

open Service Manager

variable {given more : EntryId → Option Entry} {revived : Entry → Prop} {manager : ManagerId}
  {sets : WorkingSets} {before middle after service : Service} {entry other : Entry}
  {occurrence : Occurrence}

/-- An open transaction has added the entry. -/
def Arriving (service : Service) (entry : Entry) : Prop := ∃ manager, AddedBy manager service entry

/-- An open transaction has removed the entry. -/
def Leaving (service : Service) (entry : Entry) : Prop := ∃ manager, DroppedBy manager service entry

/-- The cache refers to what is stored, to what is leaving and to what was revived; and what is
stored and not just arriving is in every cached projection that it belongs to. -/
structure Current (given : EntryId → Option Entry) (revived : Entry → Prop) (service : Service) :
    Prop where
  ledger : Ledger given service
  tidy : Tidy given service
  refers : ∀ {entry}, Refers service entry →
    service.store.Holds entry ∨ Leaving service entry ∨ revived entry
  misses : ∀ {entry}, service.store.Holds entry → ¬ Arriving service entry →
    ∀ user, ¬ Misses service entry user
  missesOn : ∀ {entry}, service.store.Holds entry → ¬ Arriving service entry →
    ¬ MissesOn service entry

theorem Current.mono {revivedToo : Entry → Prop} (current : Current given revived service)
    (more : ∀ entry, revived entry → revivedToo entry) : Current given revivedToo service :=
  { current with refers := fun refers => (current.refers refers).imp_right (Or.imp_right (more _)) }

/-! ### Idle states -/

theorem not_arriving (idle : service.Idle) : ¬ Arriving service entry :=
  fun ⟨manager, _, opened, _⟩ => nomatch (idle manager).symm.trans opened

theorem not_leaving (idle : service.Idle) : ¬ Leaving service entry :=
  fun ⟨manager, _, opened, _⟩ => nomatch (idle manager).symm.trans opened

/-- In an idle state the cache refers to what is stored and to what was revived. -/
theorem Current.holds_or_revived (current : Current given revived service) (idle : service.Idle)
    (refers : Refers service entry) : service.store.Holds entry ∨ revived entry :=
  (current.refers refers).imp_right (Or.resolve_left · (not_leaving idle))

/-! ### Empty caches -/

/-- Nothing is in the parts of the cache that grants are answered from. -/
structure Blank (cache : Cache) : Prop where
  entries : ∀ id : EntryId, cache.entries[id]? = none
  members : ∀ group : GroupId, cache.groupMembers[group]? = none
  users : ∀ user, cache.userProjections.value? user = none
  objects : ∀ object, cache.objectProjections.value? object = none

theorem blank_empty : Blank .empty :=
  ⟨fun _ => Std.ExtTreeMap.getElem?_empty, fun _ => Std.ExtTreeMap.getElem?_empty,
    fun _ => congrArg (Option.map _) Std.ExtTreeMap.getElem?_empty,
    fun _ => congrArg (Option.map _) Std.ExtTreeMap.getElem?_empty⟩

theorem blank_clear (cache : Cache) : Blank cache.clear :=
  ⟨fun _ => Std.ExtTreeMap.getElem?_empty, fun _ => Std.ExtTreeMap.getElem?_empty,
    Shelf.value?_clear _, Shelf.value?_clear _⟩

namespace Blank

/-- An empty cache refers to nothing. -/
theorem not_refers (blank : Blank service.cache) : ¬ Refers service entry := by
  rintro (⟨id, found⟩ | ⟨user, projection, found, _⟩ | ⟨object, projection, found, _⟩)
  · exact nomatch (blank.entries id).symm.trans found
  · exact nomatch (blank.users user).symm.trans found
  · exact nomatch (blank.objects object).symm.trans found

/-- In an empty cache there is no projection that could miss anything. -/
theorem not_misses (blank : Blank service.cache) {user : UserId} : ¬ Misses service entry user := by
  rintro ⟨_, _, projection, found, _⟩
  exact nomatch (blank.users user).symm.trans found

theorem not_missesOn (blank : Blank service.cache) : ¬ MissesOn service entry := by
  rintro ⟨projection, found, _⟩
  exact nomatch (blank.objects entry.object).symm.trans found

theorem resolved (blank : Blank service.cache) : Resolved service :=
  fun object _ found => nomatch (blank.objects object).symm.trans found

end Blank

/-- An empty cache is tidy. -/
theorem Service.Tidy.ofBlank (ledger : Ledger given service) (blank : Blank service.cache) :
    Tidy given service := by
  refine ⟨ledger.own, ledger.numbered, ledger.stored, ?_, ?_, ?_, ?_, ?_, ?_⟩
  · exact fun found => nomatch (blank.members _).symm.trans found
  · exact fun found => nomatch (blank.entries _).symm.trans found
  · exact fun found => nomatch (blank.users _).symm.trans found
  · exact fun found => nomatch (blank.users _).symm.trans found
  · exact fun found => nomatch (blank.objects _).symm.trans found
  · exact fun found => nomatch (blank.objects _).symm.trans found

/-- At the start the cache is current. -/
theorem Service.Fresh.current (fresh : service.Fresh) :
    Current service.store.get? revived service := by
  have ledger := ledger_of_start fresh.numbered fresh.idle
  have blank : Blank service.cache := fresh.cache ▸ blank_empty
  exact ⟨ledger, .ofBlank ledger blank, fun refers => absurd refers blank.not_refers,
    fun _ _ _ => blank.not_misses, fun _ _ => blank.not_missesOn⟩

/-! ### Events that rest -/

/-- The store and the grants of open transactions are the same, and the cache has not fallen
behind. -/
structure Rested (given : EntryId → Option Entry) (before after : Service) : Prop where
  entries : after.store.entries = before.store.entries
  stays : ∀ {manager : ManagerId} {sets}, before.transactions[manager]? = some sets →
    after.transactions[manager]? = some sets
  opened : ∀ {manager : ManagerId} {sets}, after.transactions[manager]? = some sets →
    before.transactions[manager]? = some sets ∨ sets = .empty
  sound : before.directory.Sound → after.directory.Sound
  ledger : Ledger given after
  tidy : Tidy given after
  refers : ∀ {entry}, Refers after entry → Refers before entry ∨ before.store.Holds entry
  misses : ∀ {entry}, before.store.Holds entry → ∀ {user}, Misses after entry user →
    Misses before entry user
  missesOn : ∀ {entry}, before.store.Holds entry → MissesOn after entry → MissesOn before entry

namespace Rested

theorem holds_iff (rested : Rested given before after) :
    after.store.Holds entry ↔ before.store.Holds entry :=
  Store.holds_congr rested.entries

theorem trans (first : Rested given before middle) (second : Rested given middle after) :
    Rested given before after where
  entries := second.entries.trans first.entries
  stays opened := second.stays (first.stays opened)
  opened opened := (second.opened opened).elim first.opened .inr
  sound sound := second.sound (first.sound sound)
  ledger := second.ledger
  tidy := second.tidy
  refers refers := (second.refers refers).elim first.refers fun holds =>
    .inr (first.holds_iff.mp holds)
  misses holds _ lacks := first.misses holds (second.misses (first.holds_iff.mpr holds) lacks)
  missesOn holds lacks := first.missesOn holds (second.missesOn (first.holds_iff.mpr holds) lacks)

theorem ofQuiet (ledger : Ledger given before) (tidy : Tidy given before)
    (quiet : Quiet before after) : Rested given before after where
  entries := quiet.entries
  stays opened := quiet.transactions ▸ opened
  opened opened := .inl (quiet.transactions ▸ opened)
  sound sound := quiet.directory ▸ sound
  ledger := ledger.untouched (.ofQuiet quiet)
  tidy := tidy.quiet quiet
  refers refers := refers.quiet tidy quiet
  misses holds _ lacks := lacks.quiet tidy quiet holds
  missesOn holds lacks := lacks.quiet tidy quiet holds

theorem ofRegrouped (ledger : Ledger given before) (tidy : Tidy given before)
    (regrouped : Regrouped before after) : Rested given before after where
  entries := by rw [regrouped.store]
  stays opened := regrouped.transactions ▸ opened
  opened opened := .inl (regrouped.transactions ▸ opened)
  sound _ := regrouped.sound
  ledger := ledger.untouched ⟨by rw [regrouped.store], by rw [regrouped.store],
    regrouped.transactions⟩
  tidy := regrouped.tidy tidy
  refers refers := .inl (regrouped.refers refers)
  misses _ _ lacks := regrouped.misses lacks
  missesOn _ lacks := regrouped.missesOn lacks

theorem ofRegroups (ledger : Ledger given before) (tidy : Tidy given before)
    (regroups : Regroups before after) : Rested given before after := by
  rcases regroups with quiet | ⟨middle, quiet, regrouped⟩
  · exact .ofQuiet ledger tidy quiet
  · have first : Rested given before middle := .ofQuiet ledger tidy quiet
    exact first.trans (.ofRegrouped first.ledger first.tidy regrouped)

theorem ofOpened (ledger : Ledger given service) (tidy : Tidy given service)
    (absent : service.transactions[manager]? = none) :
    Rested given service (Manager.opened manager service) where
  entries := rfl
  stays {other sets} found := by
    show (service.transactions.insert manager .empty)[other]? = some sets
    rw [OrderedMap.lookup_insert, if_neg, found]
    rintro rfl
    exact nomatch absent.symm.trans found
  opened {other sets} found := by
    have found : (service.transactions.insert manager .empty)[other]? = some sets := found
    rw [OrderedMap.lookup_insert] at found
    split at found
    · exact .inr (Option.some.inj found).symm
    · exact .inl found
  sound := id
  ledger := ledger.opened
  tidy := { tidy with }
  refers := .inl
  misses _ _ := id
  missesOn _ := id

theorem ofCleared (ledger : Ledger given service) :
    Rested given service { service with cache := service.cache.clear } := by
  have blank : Blank service.cache.clear := blank_clear service.cache
  refine ⟨rfl, id, .inl, id, ledger.untouched ⟨rfl, rfl, rfl⟩,
    .ofBlank (ledger.untouched ⟨rfl, rfl, rfl⟩) blank, ?_, ?_, ?_⟩
  · exact fun refers => absurd refers blank.not_refers
  · exact fun _ _ lacks => absurd lacks blank.not_misses
  · exact fun _ lacks => absurd lacks blank.not_missesOn

end Rested

/-! ### Steps -/

/-- What a cache refers to depends on nothing else. -/
theorem refers_congr (cache : after.cache = before.cache) :
    Refers after entry ↔ Refers before entry := by
  unfold Refers
  rw [cache]

theorem misses_congr (cache : after.cache = before.cache)
    (directory : after.directory = before.directory) {user : UserId} :
    Misses after entry user ↔ Misses before entry user := by
  unfold Misses
  rw [cache, directory]

theorem missesOn_congr (cache : after.cache = before.cache) :
    MissesOn after entry ↔ MissesOn before entry := by
  unfold MissesOn
  rw [cache]

/-- Where the cache is the same, it keeps to what was given out. -/
theorem Service.Tidy.ofLedger (tidy : Tidy given before) (ledger : Ledger more after)
    (extends' : Extends given more) (registry : after.registry = before.registry)
    (directory : after.directory = before.directory) (cache : after.cache = before.cache) :
    Tidy more after := by
  refine ⟨ledger.own, ledger.numbered, ledger.stored, ?_, ?_, ?_, ?_, ?_, ?_⟩
  all_goals rw [cache]
  · rw [directory]
    exact tidy.members
  · exact fun found => extends' (tidy.kept found)
  · rw [registry]
    exact tidy.settled
  · rw [directory]
    exact fun found _ _ held => (tidy.applies found held).imp_left extends'
  · exact tidy.summed
  · exact fun found _ _ held => (tidy.located found held).imp_left extends'

/-- What another transaction has dropped is still leaving after a commit. -/
theorem leaving_of_committed (committed : Committed given manager sets before after)
    (opened : before.transactions[manager]? = some sets) (leaves : Leaving before entry)
    (stays : ¬ sets.Drops entry) : Leaving after entry := by
  obtain ⟨actor, dropped⟩ := leaves
  by_cases own : manager = actor
  · subst own
    exact absurd ((droppedBy_iff opened).mp dropped) stays
  · have same := (committed.lookup_transactions actor).trans (if_neg own)
    exact ⟨actor, (droppedBy_congr same).mpr dropped⟩

theorem arriving_of_committed (committed : Committed given manager sets before after)
    (opened : before.transactions[manager]? = some sets) (arrives : Arriving before entry)
    (notAdded : ¬ sets.Adds entry) : Arriving after entry := by
  obtain ⟨actor, added⟩ := arrives
  by_cases own : manager = actor
  · subst own
    exact absurd ((addedBy_iff opened).mp added) notAdded
  · have same := (committed.lookup_transactions actor).trans (if_neg own)
    exact ⟨actor, (addedBy_congr same).mpr added⟩

/-- What was not leaving is not leaving after a commit. -/
theorem not_leaving_of_committed (committed : Committed given manager sets before after)
    (stays : ¬ Leaving before entry) : ¬ Leaving after entry := by
  rintro ⟨actor, sets, opened, drops⟩
  rw [committed.lookup_transactions] at opened
  split at opened
  · exact nomatch opened
  · exact stays ⟨actor, sets, opened, drops⟩

namespace Current

theorem rested (current : Current given revived before) (rested : Rested given before after) :
    Current given revived after := by
  have arriving {entry : Entry} : Arriving before entry → Arriving after entry :=
    fun ⟨manager, sets, opened, adds⟩ => ⟨manager, sets, rested.stays opened, adds⟩
  have leaving {entry : Entry} : Leaving before entry → Leaving after entry :=
    fun ⟨manager, sets, opened, drops⟩ => ⟨manager, sets, rested.stays opened, drops⟩
  refine ⟨rested.ledger, rested.tidy, fun refers => ?_, fun holds stays user lacks => ?_,
    fun holds stays lacks => ?_⟩
  · rw [rested.holds_iff]
    rcases rested.refers refers with earlier | holds
    · exact (current.refers earlier).imp_right (Or.imp_left leaving)
    · exact .inl holds
  · have holds := rested.holds_iff.mp holds
    exact current.misses holds (mt arriving stays) user (rested.misses holds lacks)
  · have holds := rested.holds_iff.mp holds
    exact current.missesOn holds (mt arriving stays) (rested.missesOn holds lacks)

/-- A new entry is only arriving, so nothing is missed. -/
theorem created (current : Current given revived before)
    (created : Created manager sets entry before after) :
    Current (giveOut given entry) revived after := by
  have ledger := current.ledger
  have holds_iff {other : Entry} :
      after.store.Holds other ↔ other = entry ∨ before.store.Holds other :=
    ledger.holds_created created
  have arriving {other : Entry} : Arriving after other ↔ other = entry ∨ Arriving before other := by
    simp [Arriving, addedBy_created ledger created, exists_or]
  have leaving {other : Entry} : Leaving after other ↔ Leaving before other := by
    simp [Leaving, droppedBy_created ledger created]
  refine ⟨ledger.created created, current.tidy.ofLedger (ledger.created created)
    (giveOut_extends (ledger.fresh created.number)) created.registry created.directory
    created.cache, fun refers => ?_, fun holds stays user lacks => ?_, fun holds stays lacks => ?_⟩
  · rw [holds_iff, leaving, or_assoc]
    exact .inr (current.refers ((refers_congr created.cache).mp refers))
  · rw [arriving, not_or] at stays
    have earlier := (holds_iff.mp holds).resolve_left stays.1
    exact current.misses earlier stays.2 user
      ((misses_congr created.cache created.directory).mp lacks)
  · rw [arriving, not_or] at stays
    have earlier := (holds_iff.mp holds).resolve_left stays.1
    exact current.missesOn earlier stays.2 ((missesOn_congr created.cache).mp lacks)

/-- A deleted entry is leaving, so the cache may still refer to it. -/
theorem deleted (current : Current given revived before)
    (deleted : Deleted manager sets entry before after) : Current given revived after := by
  have ledger := current.ledger
  have holds_iff {other : Entry} :
      after.store.Holds other ↔ before.store.Holds other ∧ other ≠ entry :=
    ledger.holds_deleted deleted
  have arriving {other : Entry} (different : other ≠ entry) :
      Arriving after other ↔ Arriving before other := by
    simp [Arriving, addedBy_deleted ledger deleted, different]
  have leaving {other : Entry} : Leaving after other ↔ other = entry ∨ Leaving before other := by
    simp [Leaving, droppedBy_deleted ledger deleted, exists_or]
  refine ⟨ledger.deleted deleted, current.tidy.ofLedger (ledger.deleted deleted) id
    deleted.registry deleted.directory deleted.cache, fun {other} refers => ?_,
    fun holds stays user lacks => ?_, fun holds stays lacks => ?_⟩
  · rw [holds_iff, leaving]
    by_cases same : other = entry
    · exact .inr (.inl (.inl same))
    · rcases current.refers ((refers_congr deleted.cache).mp refers) with holds | leaves | revives
      · exact .inl ⟨holds, same⟩
      · exact .inr (.inl (.inr leaves))
      · exact .inr (.inr revives)
  · obtain ⟨earlier, different⟩ := holds_iff.mp holds
    exact current.misses earlier (mt (arriving different).mpr stays) user
      ((misses_congr deleted.cache deleted.directory).mp lacks)
  · obtain ⟨earlier, different⟩ := holds_iff.mp holds
    exact current.missesOn earlier (mt (arriving different).mpr stays)
      ((missesOn_congr deleted.cache).mp lacks)

/-- **A call that writes keeps the cache current**, and whatever else each of its steps keeps. -/
theorem writes {aim : Aim} (current : Current given revived before)
    (writes : Writes manager aim before after) (keeps : Service → Prop) (atStart : keeps before)
    (quiet : ∀ {given before after}, Current given revived before → Quiet before after →
      keeps before → keeps after)
    (created : ∀ {given sets entry before after}, Current given revived before →
      Created manager sets entry before after → keeps before → keeps after)
    (deleted : ∀ {given sets entry before after}, Current given revived before →
      Deleted manager sets entry before after → keeps before → keeps after) :
    ∃ more, Extends given more ∧ Current more revived after ∧ keeps after := by
  induction writes with
  | refl => exact ⟨given, id, current, atStart⟩
  | tail _ step ih =>
    obtain ⟨more, extends', current, kept⟩ := ih
    cases step with
    | quiet step =>
      exact ⟨more, extends', current.rested (.ofQuiet current.ledger current.tidy step),
        quiet current step kept⟩
    | created step =>
      exact ⟨_, fun known => giveOut_extends (current.ledger.fresh step.number) (extends' known),
        current.created step, created current step kept⟩
    | deleted step =>
      exact ⟨more, extends', current.deleted step, deleted current step kept⟩

/-- **A commit keeps the cache current**, but for the additions that it revives: those that were
removed meanwhile and that nobody is about to take out of the cache. -/
theorem committed (current : Current given revived before)
    (opened : before.transactions[manager]? = some sets)
    (committed : Committed given manager sets before after) :
    Current given (fun entry => revived entry ∨
      sets.Adds entry ∧ ¬ before.store.Holds entry ∧ ¬ Leaving before entry) after := by
  have reworked := committed.reworked
  have untouched := committed.untouched
  have holds_iff {entry : Entry} : after.store.Holds entry ↔ before.store.Holds entry :=
    untouched.holds_iff
  have notDropped {entry : Entry} (holds : before.store.Holds entry) : ¬ sets.DropsId entry.id :=
    current.ledger.not_dropsId_of_holds opened holds
  refine ⟨current.ledger.closed.untouched untouched, reworked.tidy, fun {entry} refers => ?_,
    fun {entry} holds stays user lacks => ?_, fun {entry} holds stays lacks => ?_⟩
  · rw [holds_iff]
    by_cases holds : before.store.Holds entry
    · exact .inl holds
    have stays : ¬ sets.Drops entry := fun drops => committed.forgotten drops holds refers
    rcases reworked.refers refers with earlier | stored | adds
    · rcases current.refers earlier with stored | leaves | revives
      · exact .inl stored
      · exact .inr (.inl (leaving_of_committed committed opened leaves stays))
      · exact .inr (.inr (.inl revives))
    · exact .inl stored
    · by_cases leaves : Leaving before entry
      · exact .inr (.inl (leaving_of_committed committed opened leaves stays))
      · exact .inr (.inr (.inr ⟨adds, holds, leaves⟩))
  · have holds := holds_iff.mp holds
    by_cases adds : sets.Adds entry
    · exact (committed.served adds (notDropped holds) holds).1 user lacks
    · have notArriving : ¬ Arriving before entry := fun arrives =>
        stays (arriving_of_committed committed opened arrives adds)
      exact current.misses holds notArriving user (reworked.misses holds (notDropped holds) lacks)
  · have holds := holds_iff.mp holds
    by_cases adds : sets.Adds entry
    · exact (committed.served adds (notDropped holds) holds).2 lacks
    · have notArriving : ¬ Arriving before entry := fun arrives =>
        stays (arriving_of_committed committed opened arrives adds)
      exact current.missesOn holds notArriving (reworked.missesOn holds (notDropped holds) lacks)

end Current

end BookingAccess
