/-
**What is listed is known.**

The cache and the working sets list entries under their numbers. Whatever is called, by whoever, and
however it ends, an entry that is listed is one that the store has held under this number, even if
it is stored no longer or the transaction was rolled back that stored it.

* `Service.Lists`: an entry is listed; `Mindful`: the store knows whatever is;
* `Minds`: a call lists nothing else; `KeptByReading`, `KeptByCaching` and so on: no call does;
* `minds_commit`: a commit works into the cache what the working sets list;
* `mindful_of_run`: so it holds after every run.
-/

import BookingAccess.Proofs.Transaction.Surroundings

namespace BookingAccess

open Service Manager Store OrderedMap

variable {manager : ManagerId} {before after start service : Service} {id : EntryId} {entry : Entry}
  {past : List Occurrence}

instance : StoreInvariant (·.Knows entry) where
  createEntry := Knows.createEntry
  deleteEntry := Knows.deleteEntry
  createDependency known result := by
    obtain ⟨-, -, -, rfl⟩ := createDependency_eq_ok_iff.mp result
    exact ⟨known.given, known.agrees⟩
  deleteDependency known := ⟨known.given, known.agrees⟩

/-- The cache has this entry under this number, or an open transaction has added it. -/
def Service.Lists (service : Service) (id : EntryId) (entry : Entry) : Prop :=
  service.cache.entries[id]? = some entry ∨
    ∃ (manager : ManagerId) (sets : WorkingSets), service.transactions[manager]? = some sets ∧
      sets.added[id]? = some entry

/-- Every entry is listed under its own number, and the store knows it. -/
structure Mindful (service : Service) : Prop where
  numbered : service.store.Numbered
  own : ∀ {id entry}, service.Lists id entry → entry.id = id
  known : ∀ {id entry}, service.Lists id entry → service.store.Knows entry

theorem Service.Fresh.mindful (fresh : start.Fresh) : Mindful start := by
  have empty {id : EntryId} {entry : Entry} : ¬ start.Lists id entry := by
    rintro (cached | ⟨manager, sets, opened, -⟩)
    · rw [fresh.cache] at cached
      cases Std.ExtTreeMap.getElem?_empty.symm.trans cached
    · cases (fresh.idle manager).symm.trans opened
  exact ⟨fresh.numbered, fun listed => absurd listed empty, fun listed => absurd listed empty⟩

/-- What is listed was listed before, or the store has come to know it. -/
structure Minds (before after : Service) : Prop where
  numbered : before.store.Numbered → after.store.Numbered
  knows : ∀ {entry}, before.store.Knows entry → after.store.Knows entry
  lists : before.store.Numbered → ∀ {id entry}, after.Lists id entry →
    before.Lists id entry ∨ entry.id = id ∧ after.store.Knows entry

namespace Minds

theorem mindful (minds : Minds before after) (mindful : Mindful before) : Mindful after where
  numbered := minds.numbered mindful.numbered
  own listed := (minds.lists mindful.numbered listed).elim mindful.own And.left
  known listed := (minds.lists mindful.numbered listed).elim
    (fun earlier => minds.knows (mindful.known earlier)) And.right

instance : IsPreorder Service Minds where
  refl _ := ⟨fun numbered => numbered, fun known => known, fun _ _ _ => .inl⟩
  trans _ _ _ first second := by
    refine ⟨second.numbered ∘ first.numbered, second.knows ∘ first.knows,
      fun numbered _ _ listed => ?_⟩
    rcases second.lists (first.numbered numbered) listed with earlier | known
    · exact (first.lists numbered earlier).imp_right (And.imp_right second.knows)
    · exact .inr known

/-- The store is the same, and nothing more is listed. -/
theorem ofFewer (store : after.store = before.store)
    (fewer : ∀ {id entry}, after.Lists id entry → before.Lists id entry) : Minds before after :=
  ⟨(store ▸ ·), (store ▸ ·), fun _ _ _ listed => .inl (fewer listed)⟩

theorem ofSame (store : after.store = before.store) (cache : after.cache = before.cache)
    (transactions : after.transactions = before.transactions) : Minds before after :=
  .ofFewer store fun listed => by
    unfold Service.Lists at listed
    rwa [cache, transactions] at listed

theorem ofQuiet (quiet : Quiet before after) : Minds before after := by
  have holds {entry : Entry} (held : before.store.Holds entry) : after.store.Holds entry :=
    (quiet.get? entry.id).trans held
  refine ⟨(Untouched.ofQuiet quiet).numbered, fun known => ?_, fun numbered number entry => ?_⟩
  · exact ⟨quiet.lastId ▸ known.given, fun kept found =>
      known.agrees kept ((quiet.get? _).symm.trans found)⟩
  · rintro (cached | ⟨manager, sets, opened, added⟩)
    · rcases quiet.kept number with same | ⟨loaded, stored, own, found⟩
      · exact .inl (.inl (same ▸ cached))
      · obtain rfl := Option.some.inj (found.symm.trans cached)
        have held := numbered.mem_entryList.mp stored
        exact .inr ⟨own, quiet.lastId ▸ (numbered _ _ held).2, (holds held).agrees⟩
    · exact .inl (.inr ⟨manager, sets, quiet.transactions ▸ opened, added⟩)

/-! ### Questions and the cache -/

instance : KeptByReading Minds := .mono fun _ _ => ofQuiet

instance : KeptBySwitching Minds where
  setMode _ _ := .modify fun _ => ofSame rfl rfl rfl

instance : KeptByCaching Minds where
  directoryCall kind answer _ := (ensures_directoryCall kind answer).mono
    (fun _ _ ⟨_, _, asked⟩ => asked ▸ ofSame rfl rfl rfl)
    fun _ _ ⟨_, _, asked⟩ => asked ▸ ofSame rfl rfl rfl
  forgets forgotten service := .ofFewer rfl fun listed =>
    listed.imp_left (forgotten service.cache _ _)

/-! ### Calls of a manager -/

/-- Whatever is asked of the store, it does not forget what it knows. -/
theorem ofStore {store : Store} {calls : Nat}
    (stays : ∀ {property : Store → Prop} [StoreInvariant property],
      property service.store → property store) :
    Minds service { service with calls := calls, store := store } :=
  ⟨stays, fun {entry} => @stays (·.Knows entry) _, fun _ _ _ => .inl⟩

theorem storeChange {kind : StoreCall} {answer : Store → Except StoreError Store}
    (stays : ∀ {property : Store → Prop} [StoreInvariant property] {store changed : Store},
      property store → answer store = .ok changed → property changed) :
    Keeps Minds (StoreClient.change kind answer) := fun _ =>
  (ensures_storeChange kind answer).mono
    (fun _ _ ⟨_, answered, asked⟩ => asked ▸ ofStore (stays · answered))
    fun _ _ ⟨_, asked⟩ => asked ▸ ofSame rfl rfl rfl

instance : KeptByCalling Minds := .mono fun _ _ => ofQuiet

/-- The working sets list nothing more, or what the store knows. -/
theorem changeWorkingSets {change : WorkingSets → WorkingSets}
    (added : ∀ {sets : WorkingSets} {id : EntryId} {entry}, (change sets).added[id]? = some entry →
      sets.added[id]? = some entry ∨ entry.id = id ∧ service.store.Knows entry) :
    KeepsAt Minds service (changeWorkingSets manager change) := by
  refine (ensures_changeWorkingSets change).mono ?_ fun _ _ ⟨_, same⟩ => same ▸ refl _
  rintro _ _ ⟨sets, opened, rfl⟩
  refine ⟨id, id, fun _ number entry => ?_⟩
  rintro (cached | ⟨other, others, otherOpened, listed⟩)
  · exact .inl (.inl cached)
  · have found := (lookup_insert ..).symm.trans otherOpened
    split at found
    · obtain rfl := Option.some.inj found
      exact (added listed).imp_left fun earlier => .inr ⟨manager, sets, opened, earlier⟩
    · exact .inl (.inr ⟨other, others, found, listed⟩)

instance : KeptByManaging manager Minds where
  insertEntry identity object role service := by
    have creates : Ensures (Action.ofStore (StoreClient.createEntry identity object role)) service
        (fun entry middle => Minds service middle ∧ middle.store.Knows entry)
        (fun _ => Minds service) := by
      refine ensures_ofStore.mpr ((ensures_storeCall _ _).mono ?_ fun _ _ ⟨_, asked⟩ =>
        asked ▸ ofSame rfl rfl rfl)
      rintro entry _ ⟨store, result, rfl⟩
      exact ⟨ofStore (StoreInvariant.createEntry · result), .created result⟩
    unfold Manager.insertEntry
    refine KeepsAt.bindKnown creates fun entry middle _ known => ?_
    refine .bind (KeptByReading.record _ middle) fun _ later minds => ?_
    refine .bind (changeWorkingSets fun listed => ?_) fun _ _ _ => .pure
    rcases WorkingSets.lookup_added_add listed with ⟨own, rfl⟩ | earlier
    · exact .inr ⟨own, minds.knows known⟩
    · exact .inl earlier
  removeEntry entry := by
    unfold Manager.removeEntry
    refine .bind (.ofStore (storeChange StoreInvariant.deleteEntry)) fun _ =>
      .bind (KeptByReading.record _) fun _ _ => ?_
    exact changeWorkingSets fun listed => .inl (WorkingSets.lookup_added_remove listed).2

end Minds

/-! ### Beginning and ending -/

/-- An entry that the store knows is worked into the cache. -/
theorem minds_applyAddition (known : service.store.Knows entry) :
    KeepsAt Minds service (applyAddition entry) := by
  refine KeptByCaching.applyAddition (ensures_modifyCache.mpr ⟨fun numbered => numbered,
    fun known => known, fun _ number other => ?_⟩)
  rintro (cached | opened)
  · have found := (lookup_insert service.cache.entries entry.id number entry).symm.trans cached
    split at found
    · obtain rfl := Option.some.inj found
      exact .inr ⟨‹_›, known⟩
    · exact .inl (.inl found)
  · exact .inl (.inr opened)

theorem minds_opened (manager : ManagerId) (service : Service) :
    Minds service (opened manager service) :=
  .ofFewer rfl fun listed => listed.imp_right fun lists => by
    obtain ⟨other, sets, opened, added⟩ := lists
    have found := (lookup_insert ..).symm.trans opened
    split at found
    · obtain rfl := Option.some.inj found
      cases Std.ExtTreeMap.getElem?_empty.symm.trans added
    · exact ⟨other, sets, found, added⟩

theorem minds_closed (manager : ManagerId) (service : Service) :
    Minds service (closed manager service) :=
  .ofFewer rfl fun listed => listed.imp_right fun ⟨other, sets, opened, added⟩ => by
    have found := (lookup_erase ..).symm.trans opened
    split at found
    · exact nomatch found
    · exact ⟨other, sets, found, added⟩

/-- **A commit** works into the cache what the store knows. -/
theorem minds_commit (mindful : Mindful service) : KeepsAt Minds service (commit manager) := by
  unfold commit
  refine ensures_bind.mpr (ensures_close.mono ?_ fun _ _ ⟨_, same⟩ => same ▸ refl _)
  rintro sets _ ⟨opened, rfl⟩
  refine Ensures.mono (?_ : KeepsAt Minds (closed manager service) _)
    (fun _ _ => IsTrans.trans _ _ _ (minds_closed manager service))
    fun _ _ => IsTrans.trans _ _ _ (minds_closed manager service)
  refine .bind (.forM fun entry listed middle minds => ?_) fun _ middle _ =>
    Keeps.bind (.forM KeptByCaching.applyRemoval) (fun _ =>
      .bind (.forM KeptByCaching.applyRemoval) fun _ => KeptByReading.record _) middle
  obtain ⟨number, added⟩ := mem_values_iff.mp listed
  exact minds_applyAddition (minds.knows (mindful.known (.inr ⟨manager, sets, opened, added⟩)))

theorem minds_rollback : Keeps Minds (rollback manager) := fun service =>
  ensures_rollback.mono (fun _ _ closes => closes ▸ minds_closed manager service)
    fun _ _ refused => refused.2 ▸ refl _

/-! ### Runs -/

/-- **Whatever happens, nothing is listed that is not known.** -/
theorem Minds.event (occurrence : Occurrence) (mindful : Mindful occurrence.before) :
    Minds occurrence.before occurrence.after := by
  obtain ⟨before, event⟩ := occurrence
  cases event with
  | outages failing => exact .ofSame rfl rfl rfl
  | graph objects => exact .ofSame rfl rfl rfl
  | call made =>
    cases made with
    | ask question => exact question.keeps.after before
    | regroup change => exact change.keeps.after before
    | clearCache => exact (KeptByCaching.forgets forgets_clear).after before
    | manage manager task =>
      cases boundary : task.isBoundary with
      | false => exact (Task.manages boundary).after before
      | true =>
        cases task with
        | begin =>
          show Minds before ((begin manager).run.run before).2
          rcases begin_after manager before with same | ⟨-, opened⟩
          · rw [same]
            exact refl before
          · rw [opened]
            exact minds_opened manager before
        | commit => exact (minds_commit mindful).after
        | rollback => exact minds_rollback.after before
        | _ => exact nomatch boundary

/-- **After a run what is listed is known**, whoever has called and whatever has failed. -/
theorem mindful_of_run {rule : Occurrence → Prop} (fresh : start.Fresh)
    (run : Run rule start past service) : Mindful service := by
  induction run with
  | start => exact fresh.mindful
  | next event _ _ ih => exact (Minds.event ⟨_, event⟩ ih).mindful ih

end BookingAccess
