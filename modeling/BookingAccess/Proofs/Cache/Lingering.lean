/-
**What lingers in the cache.**

An entry may be in the cache though it is stored no longer. Then the open transaction has deleted
it, or one has that was given up afterwards: rolled back, or broken off in its commit. Nothing else
lingers, since only what is stored is put in the cache, and a commit takes out of it whatever its
transaction has deleted.

* `Looks`: a call puts nothing in the cache that is not stored;
* `Manager.Tracked`: what the store, the cache and the working sets say of a number; `Tracks`: a
  call of the manager keeps that; `evicts_commit`: and so does a commit;
* `Occurrence.GivesUp`: a transaction is given up; `tracked_of_run`: the run of a manager that is
  alone with the store.
-/

import BookingAccess.Proofs.Transaction.Alone

namespace BookingAccess

open Service Manager Store OrderedMap

variable {manager : ManagerId} {before after start service : Service} {id : EntryId} {entry : Entry}
  {past : List Occurrence} {lost : Prop}

/-! ### What is put in the cache -/

/-- The store and the transactions are the same, and whatever is new in the cache is stored. -/
structure Looks (before after : Service) : Prop extends Untouched before after where
  cached : before.store.Numbered → ∀ {id : EntryId}, id ∈ after.cache.entries →
    id ∈ before.cache.entries ∨ before.store.get? id ≠ none

namespace Looks

theorem ofSame (store : after.store = before.store) (cache : after.cache = before.cache)
    (transactions : after.transactions = before.transactions) : Looks before after :=
  ⟨⟨congrArg _ store, congrArg _ store, transactions⟩, fun _ _ cached => .inl (cache ▸ cached)⟩

theorem ofQuiet (quiet : Quiet before after) : Looks before after := by
  refine ⟨.ofQuiet quiet, fun numbered id cached => ?_⟩
  rw [mem_iff_exists] at cached ⊢
  rcases quiet.kept id with same | ⟨entry, listed, rfl, -⟩
  · exact .inl (same ▸ cached)
  · have stored : before.store.get? entry.id = some entry := numbered.mem_entryList.mp listed
    exact .inr (stored ▸ Option.some_ne_none entry)

instance : IsPreorder Service Looks where
  refl _ := .ofSame rfl rfl rfl
  trans _ _ _ first second := by
    refine ⟨⟨second.entries.trans first.entries, second.lastId.trans first.lastId,
      second.transactions.trans first.transactions⟩, fun numbered id cached => ?_⟩
    rcases second.cached (first.numbered numbered) cached with earlier | stored
    · exact first.cached numbered earlier
    · exact .inr (first.get? id ▸ stored)

/-- What is not stored does not come back to the cache. -/
theorem staysOut (looks : Looks before after) (numbered : before.store.Numbered)
    (absent : before.store.get? id = none) (out : id ∉ before.cache.entries) :
    id ∉ after.cache.entries := fun cached =>
  (looks.cached numbered cached).elim out fun stored => stored absent

instance : KeptByReading Looks := .mono fun _ _ => ofQuiet

instance : KeptBySwitching Looks where
  setMode _ _ := .modify fun _ => ofSame rfl rfl rfl

instance : KeptByCaching Looks where
  directoryCall kind answer _ := (ensures_directoryCall kind answer).mono
    (fun _ _ ⟨_, _, asked⟩ => asked ▸ ofSame rfl rfl rfl)
    fun _ _ ⟨_, _, asked⟩ => asked ▸ ofSame rfl rfl rfl
  forgets {change} forgotten service := by
    refine ensures_modifyCache.mpr ⟨⟨rfl, rfl, rfl⟩, fun _ id cached => .inl ?_⟩
    obtain ⟨entry, found⟩ := mem_iff_exists.mp cached
    exact mem_iff_exists.mpr ⟨entry, forgotten service.cache id entry found⟩

/-- What is stored may be put in the cache. -/
theorem applyAddition (holds : service.store.Holds entry) :
    KeepsAt Looks service (applyAddition entry) := by
  refine KeptByCaching.applyAddition (ensures_modifyCache.mpr
    ⟨⟨rfl, rfl, rfl⟩, fun _ id cached => ?_⟩)
  have cached : id ∈ service.cache.entries.insert entry.id entry := cached
  rcases Std.ExtTreeMap.mem_insert.mp cached with same | earlier
  · obtain rfl := Std.LawfulEqCmp.eq_of_compare same
    have stored : service.store.get? entry.id = some entry := holds
    exact .inr (stored ▸ Option.some_ne_none entry)
  · exact .inl earlier

instance : KeptByCalling Looks := .mono fun _ _ => ofQuiet

end Looks

namespace Manager

/-! ### What is said of a number -/

/-- What the store, the cache and the working sets of the manager say of a number. The entry under
it may have been lost: a transaction had deleted it and was given up. Either way it is gone for
good, and nothing else keeps an entry in the cache that is not stored. -/
structure Tracked (manager : ManagerId) (id : EntryId) (lost : Prop) (service : Service) :
    Prop where
  settled : Settled manager service
  recorded : (setsOf manager service).RecordsOnce id
  spent : lost ∨ (setsOf manager service).Discards id →
    service.store.get? id = none ∧ id ≤ service.store.lastId
  apart : lost → ¬ (setsOf manager service).Discards id
  cached : id ∈ service.cache.entries → service.store.get? id = none →
    lost ∨ (setsOf manager service).Discards id

namespace Tracked

theorem ofFresh (fresh : start.Fresh) : Tracked manager id False start := by
  have unspent : ¬ (setsOf manager start).Discards id :=
    setsOf_eq_empty (fresh.idle manager) ▸ WorkingSets.not_discards_empty
  refine ⟨.ofClosed fresh.numbered (fresh.idle manager), .of_not_discards unspent,
    fun spent => absurd (spent.resolve_left not_false) unspent, fun _ => unspent,
    fun cached => ?_⟩
  rw [fresh.cache] at cached
  exact absurd cached Std.ExtTreeMap.not_mem_empty

/-- The same is recorded under the number, and stored under it. -/
theorem next (tracked : Tracked manager id lost before) (settled : Settled manager after)
    (same : WorkingSets.SameUnder id (setsOf manager before) (setsOf manager after))
    (stored : after.store.get? id = before.store.get? id)
    (lastId : before.store.lastId ≤ after.store.lastId)
    (cached : id ∈ after.cache.entries →
      id ∈ before.cache.entries ∨ before.store.get? id ≠ none) :
    Tracked manager id lost after where
  settled := settled
  recorded := tracked.recorded.same same
  spent spent := by
    obtain ⟨absent, given⟩ := tracked.spent (spent.imp_right same.discards_iff.mp)
    exact ⟨stored.trans absent, Nat.le_trans given lastId⟩
  apart isLost := mt same.discards_iff.mp (tracked.apart isLost)
  cached isCached absent := by
    have absent := stored.symm.trans absent
    have earlier := (cached isCached).resolve_right (not_not_intro absent)
    exact (tracked.cached earlier absent).imp_right same.discards_iff.mpr

theorem looks (tracked : Tracked manager id lost before) (looks : Looks before after) :
    Tracked manager id lost after := by
  have same : setsOf manager after = setsOf manager before := by
    rw [setsOf, looks.transactions, setsOf]
  exact tracked.next (tracked.settled.untouched looks.toUntouched) (same ▸ .refl _) (looks.get? id)
    (Nat.le_of_eq looks.lastId.symm) (looks.cached tracked.settled.numbered)

/-- An entry that is stored anew has a number that was never used. -/
theorem created {sets : WorkingSets} (tracked : Tracked manager id lost before)
    (settled : Settled manager after) (created : Created manager sets entry before after) :
    Tracked manager id lost after := by
  have changed : setsOf manager after = (setsOf manager before).add entry := by
    rw [setsOf_insert created.transactions, setsOf_eq created.opened]
  have stored : after.store.get? id = if entry.id = id then some entry else before.store.get? id :=
    (congrArg (·[id]?) created.entries).trans (lookup_insert ..)
  by_cases own : entry.id = id
  · have unspent : ¬ (lost ∨ (setsOf manager before).Discards id) := fun spent => by
      have given := (tracked.spent spent).2
      rw [← own, created.number] at given
      exact Nat.not_succ_le_self _ given
    -- So no deletion is recorded under it, and none is by the call.
    have unspentAfter : ¬ (setsOf manager after).Discards id := by
      subst own
      rw [changed, (WorkingSets.sameUnder_add_fresh (unspent ∘ .inr)).discards_iff]
      exact unspent ∘ .inr
    refine ⟨settled, .of_not_discards unspentAfter, fun spent => ?_, fun _ => unspentAfter,
      fun _ absent => ?_⟩
    · exact absurd spent (not_or.mpr ⟨unspent ∘ .inl, unspentAfter⟩)
    · rw [stored, if_pos own] at absent
      exact nomatch absent
  · exact tracked.next settled (changed ▸ WorkingSets.sameUnder_add own)
      (stored.trans (if_neg own)) (created.lastId ▸ Nat.le_succ _)
      fun cached => .inl (created.cache ▸ cached)

/-- An entry that is deleted was stored until then. -/
theorem removed {sets : WorkingSets} (tracked : Tracked manager id lost before)
    (settled : Settled manager after) (removed : Removed manager sets entry before after) :
    Tracked manager id lost after := by
  have changed : setsOf manager after = (setsOf manager before).remove entry := by
    rw [setsOf_insert removed.transactions, setsOf_eq removed.opened]
  have stored : after.store.get? id = if entry.id = id then none else before.store.get? id :=
    get?_of_deleteEntry removed.result
  obtain ⟨present, result⟩ := deleteEntry_eq_ok_iff.mp removed.result
  have lastId : after.store.lastId = before.store.lastId := by rw [result]
  by_cases own : entry.id = id
  · subst own
    have unspent : ¬ (lost ∨ (setsOf manager before).Discards entry.id) := fun spent => by
      rw [(tracked.spent spent).1] at present
      exact nomatch present
    have discards : (setsOf manager after).Discards entry.id :=
      changed ▸ WorkingSets.discards_remove
    obtain ⟨kept, found⟩ := Option.isSome_iff_exists.mp present
    refine ⟨settled, ?_, fun _ => ⟨stored.trans (if_pos rfl), ?_⟩, fun isLost => ?_,
      fun _ _ => .inr discards⟩
    · rw [changed]
      exact .remove (unspent ∘ .inr) fun {other} added =>
        (tracked.settled.numbered _ other (tracked.settled.stored added)).1
    · exact lastId ▸ (tracked.settled.numbered _ kept found).2
    · exact absurd (.inl isLost) unspent
  · exact tracked.next settled (changed ▸ WorkingSets.sameUnder_remove own)
      (stored.trans (if_neg own)) (Nat.le_of_eq lastId.symm)
      fun cached => .inl (removed.cache ▸ cached)

end Tracked

/-! ### Calls of the manager -/

/-- A call in a transaction keeps what is said of the number. -/
structure Tracks (manager : ManagerId) (id : EntryId) (before after : Service) : Prop where
  isOpen : IsOpen manager before → IsOpen manager after
  tracked : IsOpen manager before → ∀ {lost : Prop}, Tracked manager id lost before →
    Tracked manager id lost after

namespace Tracks

instance : IsPreorder Service (Tracks manager id) where
  refl _ := ⟨fun opened => opened, fun _ _ tracked => tracked⟩
  trans _ _ _ first second := ⟨second.isOpen ∘ first.isOpen,
    fun opened _ tracked => second.tracked (first.isOpen opened) (first.tracked opened tracked)⟩

theorem ofLooks (looks : Looks before after) : Tracks manager id before after :=
  ⟨fun opened => by rwa [IsOpen, looks.transactions], fun _ _ tracked => tracked.looks looks⟩

instance : KeptByCalling (Tracks manager id) := .mono fun _ _ quiet => ofLooks (.ofQuiet quiet)

theorem ofClosed (closed : ¬ IsOpen manager before) : Tracks manager id before after :=
  ⟨fun opened => absurd opened closed, fun opened => absurd opened closed⟩

instance : KeptByManaging manager (Tracks manager id) where
  insertEntry identity object role service := by
    have settles : KeepsAt (Settles manager) service (insertEntry manager identity object role) :=
      KeptByManaging.insertEntry identity object role service
    by_cases opened : IsOpen manager service
    · refine ((ensures_insertEntry identity object role opened).and settles).mono ?_
        fun _ _ failed => ofLooks (.ofQuiet failed.1.1)
      rintro entry after ⟨⟨⟨_, created⟩, -⟩, settles⟩
      exact ⟨(WriteStep.created created).isOpen,
        fun _ _ tracked => tracked.created (settles tracked.settled) created⟩
    · exact settles.mono fun _ _ => ofClosed opened
  removeEntry entry service := by
    have settles : KeepsAt (Settles manager) service (removeEntry manager entry) :=
      KeptByManaging.removeEntry entry service
    by_cases opened : IsOpen manager service
    · refine ((ensures_removeEntry opened).and settles).mono ?_
        fun _ _ failed => ofLooks (.ofQuiet failed.1.1)
      rintro _ after ⟨⟨_, removed⟩, settles⟩
      exact ⟨fun _ => removed.isOpen,
        fun _ _ tracked => tracked.removed (settles tracked.settled) removed⟩
    · exact settles.mono fun _ _ => ofClosed opened

end Tracks

/-! ### Beginning and ending -/

/-- A removal takes the entry out of the cache, and what is stored no longer does not come back. -/
theorem evicts_applyRemoval (numbered : service.store.Numbered) :
    Ensures (applyRemoval entry) service
      (fun _ after => Looks service after ∧
        (service.store.get? entry.id = none → entry.id ∉ after.cache.entries))
      (fun _ => Looks service) := by
  have forgets : Looks service { service with cache := service.cache.removeEntry entry.id } :=
    KeptByCaching.forgets (forgets_removeEntry entry.id) service
  unfold Service.applyRemoval
  refine ensures_bind.mpr (ensures_modifyCache.mpr ?_)
  refine (KeptByCaching.projectionsLose entry _).mono (fun _ after loses => ?_)
    fun _ _ => IsTrans.trans _ _ _ forgets
  have out : entry.id ∉ service.cache.entries.erase entry.id := fun cached =>
    (Std.ExtTreeMap.mem_erase.mp cached).1 Std.ReflCmp.compare_self
  exact ⟨IsTrans.trans _ _ _ forgets loses, fun absent => loses.staysOut numbered absent out⟩

/-- Removals, one after another. -/
theorem evicts_removals {entries : List Entry} (numbered : service.store.Numbered) :
    Ensures (entries.forM applyRemoval) service
      (fun _ after => Looks service after ∧ ∀ entry ∈ entries,
        service.store.get? entry.id = none → entry.id ∉ after.cache.entries)
      (fun _ => Looks service) := by
  refine (Ensures.forM (Looks service)
    (fun entry after => service.store.get? entry.id = none → entry.id ∉ after.cache.entries)
    (refl service) fun entry _ middle soFar => ?_).mono
      (fun _ _ ⟨looks, evicted, _⟩ => ⟨looks, evicted⟩) fun _ _ => id
  have numbered := soFar.numbered numbered
  refine (evicts_applyRemoval numbered).mono (fun _ after ⟨looks, evicted⟩ => ?_)
    fun _ _ => IsTrans.trans _ _ _ soFar
  exact ⟨IsTrans.trans _ _ _ soFar looks, fun absent => evicted ((soFar.get? _).trans absent),
    fun other evicted absent =>
      looks.staysOut numbered ((soFar.get? _).trans absent) (evicted absent)⟩

/-- An entry that is recorded under this number is listed, if it has the number. -/
theorem exists_value_of_mem {map : Std.ExtTreeMap EntryId Entry} (recorded : id ∈ map)
    (own : ∀ {entry : Entry}, map[id]? = some entry → entry.id = id) :
    ∃ entry ∈ map.values, entry.id = id := by
  obtain ⟨entry, found⟩ := mem_iff_exists.mp recorded
  exact ⟨entry, mem_values_iff.mpr ⟨id, found⟩, own found⟩

/-- **A commit takes out of the cache what its transaction has deleted.** -/
theorem evicts_commit {sets : WorkingSets} (tracked : Tracked manager id lost service)
    (opened : service.transactions[manager]? = some sets) :
    Ensures (commit manager) service
      (fun _ after => Looks (closed manager service) after ∧
        (sets.Discards id → id ∉ after.cache.entries))
      (fun _ => Looks (closed manager service)) := by
  have numbered : (closed manager service).store.Numbered := tracked.settled.numbered
  have recorded : sets.RecordsOnce id := setsOf_eq opened ▸ tracked.recorded
  unfold commit
  refine ensures_bind.mpr (ensures_close.mono ?_ ?_)
  rotate_left
  · rintro _ _ ⟨none, -⟩
    cases none.symm.trans opened
  rintro _ _ ⟨found, rfl⟩
  obtain rfl := Option.some.inj (found.symm.trans opened)
  -- What is added is stored.
  refine KeepsAt.ensuresBind (KeepsAt.forM fun entry listed middle looks => ?_).ensures ?_
  · obtain ⟨number, added⟩ := mem_values_iff.mp listed
    exact Looks.applyAddition ((looks.holds_iff).mpr
      (numbered.holds (tracked.settled.added _ opened number entry added)))
  -- What is taken out is not stored, so the rest of the commit does not put it back.
  rintro _ first adding -
  refine KeepsAt.ensuresBind (evicts_removals (adding.numbered numbered)) ?_
  rintro _ second removing removed
  have numbered := removing.numbered (adding.numbered numbered)
  refine KeepsAt.ensuresBind (evicts_removals numbered) ?_
  rintro _ third cancelling cancelled
  refine ensures_record.mpr ⟨.ofSame rfl rfl rfl, fun discards => ?_⟩
  have absent : first.store.get? id = none :=
    (adding.get? id).trans (tracked.spent (.inr (setsOf_eq opened ▸ discards))).1
  have stillAbsent : second.store.get? id = none := (removing.get? id).trans absent
  rcases discards with isRemoved | isCancelled
  · obtain ⟨entry, listed, rfl⟩ := exists_value_of_mem isRemoved (recorded.own ∘ .inl)
    exact cancelling.staysOut numbered stillAbsent (removed entry listed absent)
  · obtain ⟨entry, listed, rfl⟩ := exists_value_of_mem isCancelled (recorded.own ∘ .inr)
    exact cancelled entry listed stillAbsent

end Manager

/-! ### Runs -/

/-- A transaction is over that had deleted the entry with this number, and not by a commit that was
carried through. -/
def Occurrence.GivesUp (manager : ManagerId) (id : EntryId) (occurrence : Occurrence) : Prop :=
  (setsOf manager occurrence.before).Discards id ∧
    (occurrence.event = .call (.manage manager .rollback) ∨
      occurrence.event = .call (.manage manager .commit) ∧
        ∃ fault, ((commit manager).run.run occurrence.before).1 = .error fault)

namespace Manager

variable {occurrence : Occurrence}

/-- Only an end of a transaction gives it up. -/
theorem isBoundary_of_givesUp {task : Task} (givesUp : occurrence.GivesUp manager id)
    (called : occurrence.event = .call (.manage manager task)) : task.isBoundary = true := by
  rcases givesUp.2 with rolledBack | ⟨committed, -⟩
  · cases called.symm.trans rolledBack
    rfl
  · cases called.symm.trans committed
    rfl

/-- Without a transaction there is none to give up. -/
theorem not_givesUp_of_closed (closed : occurrence.before.transactions[manager]? = none) :
    ¬ occurrence.GivesUp manager id := fun givesUp =>
  WorkingSets.not_discards_empty (setsOf_eq_empty closed ▸ givesUp.1)

theorem Tracked.kept (tracked : Tracked manager id lost after)
    (keeps : ¬ occurrence.GivesUp manager id) :
    Tracked manager id (occurrence.GivesUp manager id ∨ lost) after := by
  rwa [or_iff_right keeps]

/-- The transaction is over. What it had deleted is not in the cache, or it was given up. -/
theorem Tracked.ended (tracked : Tracked manager id lost occurrence.before)
    (looks : Looks (closed manager occurrence.before) after)
    (evicts : (setsOf manager occurrence.before).Discards id → id ∈ after.cache.entries →
      occurrence.GivesUp manager id) :
    Tracked manager id (occurrence.GivesUp manager id ∨ lost) after := by
  have ended : after.transactions[manager]? = none := by
    rw [looks.transactions]
    exact (lookup_erase ..).trans (if_pos rfl)
  have unspent : ¬ (setsOf manager after).Discards id :=
    setsOf_eq_empty ended ▸ WorkingSets.not_discards_empty
  have numbered : (closed manager occurrence.before).store.Numbered := tracked.settled.numbered
  have stored : after.store.get? id = occurrence.before.store.get? id := looks.get? id
  refine ⟨.ofClosed (looks.numbered numbered) ended, .of_not_discards unspent, fun spent => ?_,
    fun _ => unspent, fun cached absent => .inl ?_⟩
  · have left := (spent.resolve_right unspent).imp_left And.left
    obtain ⟨absent, given⟩ := tracked.spent left.symm
    exact ⟨stored.trans absent, looks.lastId ▸ given⟩
  · have absent := stored.symm.trans absent
    have earlier := (looks.cached numbered cached).resolve_right (not_not_intro absent)
    exact (tracked.cached earlier absent).symm.imp_left fun discards => evicts discards cached

/-- **At the end of a transaction** what it had deleted is lost if it is given up. -/
theorem Tracked.boundary {task : Task} (isBoundary : task.isBoundary = true)
    (called : occurrence.event = .call (.manage manager task))
    (tracked : Tracked manager id lost occurrence.before) :
    Tracked manager id (occurrence.GivesUp manager id ∨ lost) occurrence.after := by
  have refused (after : Service) (closed : occurrence.before.transactions[manager]? = none)
      (same : after = occurrence.before) :
      Tracked manager id (occurrence.GivesUp manager id ∨ lost) after :=
    same ▸ tracked.kept (not_givesUp_of_closed closed)
  obtain ⟨before, event⟩ := occurrence
  obtain rfl : event = .call (.manage manager task) := called
  cases task with
  | begin =>
    refine Tracked.kept ?_ fun givesUp => by rcases givesUp.2 with ⟨⟨⟩⟩ | ⟨⟨⟩, -⟩
    show Tracked manager id lost ((begin manager).run.run before).2
    rcases begin_after manager before with same | ⟨absent, opens⟩
    · rw [same]
      exact tracked
    · have same : setsOf manager (opened manager before) = setsOf manager before :=
        (setsOf_insert rfl).trans (setsOf_eq_empty absent).symm
      rw [opens]
      exact tracked.next (.ofOpened tracked.settled.numbered) (same ▸ .refl _) rfl
        (Nat.le_refl _) .inl
  | rollback =>
    refine (ensures_rollback.mono (fun _ after closes => ?_)
      fun _ after failed => refused after failed.1 failed.2).after
    exact Tracked.ended tracked (closes ▸ refl _) fun discards _ => ⟨discards, .inl rfl⟩
  | commit =>
    cases opened : before.transactions[manager]? with
    | none =>
      exact ((ensures_commit_closed opened).mono (fun _ _ never => never.elim)
        fun _ after failed => refused after opened failed.2).after
    | some sets =>
      have commits := evicts_commit tracked opened
      show Tracked manager id _ ((commit manager).run.run before).2
      rcases result : (commit manager).run.run before with ⟨fault | _, after⟩
      · exact tracked.ended (commits.of_error result) fun discards _ =>
          ⟨discards, .inr ⟨rfl, fault, congrArg Prod.fst result⟩⟩
      · obtain ⟨looks, evicted⟩ := commits.of_ok result
        exact tracked.ended looks fun discards cached =>
          absurd cached (evicted (setsOf_eq opened ▸ discards))
  | _ => exact nomatch isBoundary

/-- What is lost is only lost when a transaction is given up. -/
theorem Tracked.event (managed : occurrence.ManagedBy manager)
    (tracked : Tracked manager id lost occurrence.before) :
    Tracked manager id (occurrence.GivesUp manager id ∨ lost) occurrence.after := by
  have aside (looks : Looks occurrence.before occurrence.after)
      (outside : ∀ task, occurrence.event ≠ .call (.manage manager task)) :
      Tracked manager id (occurrence.GivesUp manager id ∨ lost) occurrence.after :=
    (tracked.looks looks).kept fun givesUp =>
      givesUp.2.elim (outside _) fun committed => outside _ committed.1
  obtain ⟨before, event⟩ := occurrence
  cases event with
  | outages failing => exact aside (.ofSame rfl rfl rfl) nofun
  | graph objects => exact aside (.ofSame rfl rfl rfl) nofun
  | call made =>
    cases made with
    | ask question => exact aside (question.keeps.after before) nofun
    | regroup change => exact aside (change.keeps.after before) nofun
    | clearCache => exact aside ((KeptByCaching.forgets forgets_clear).after before) nofun
    | manage other task =>
      obtain rfl := managed other task rfl
      cases boundary : task.isBoundary with
      | true => exact Tracked.boundary boundary rfl tracked
      | false =>
        refine Tracked.kept ?_ fun givesUp =>
          nomatch boundary.symm.trans (isBoundary_of_givesUp givesUp rfl)
        cases opened : before.transactions[other]? with
        | none => exact tracked.looks (Task.idles opened boundary).after
        | some sets =>
          have tracks : Tracks other id before ((task.action other).run.run before).2 :=
            (Task.manages boundary).after before
          exact tracks.tracked (isOpen_of_some opened) tracked

/-- **A manager that is alone**: what is known of a number after a run. -/
theorem tracked_of_run (fresh : start.Fresh) (run : Run (·.ManagedBy manager) start past service) :
    Tracked manager id (∃ occurrence ∈ past, occurrence.GivesUp manager id) service := by
  induction run with
  | start => simpa using Tracked.ofFresh fresh
  | next event _ managed ih =>
    simp only [List.mem_cons, exists_eq_or_imp]
    exact Tracked.event managed ih

end Manager

end BookingAccess
