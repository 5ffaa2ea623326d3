/-
**Revoking only deletes.**

However far a deletion reaches, and wherever it fails, the calls that revoke delete stored entries
and record them, and do nothing else to the grants. The entry that is recorded is the one that was
stored: an entry that was read goes on agreeing with the store, because entries only go while a call
revokes, and so does one that was handed over, if it agreed when the call began. An entry goes
because the call is aimed at it, or because it was reached from a parent entry that went and had no
other parent left.

* `Revoking`: what such a call does to the store and to the working sets;
* `revokes_deleteEntry`, `revokes_deleteEntriesForObject`, `revokes_deleteEntriesForChild`: the
  calls.
-/

import BookingAccess.Proofs.Store.Steps
import BookingAccess.Proofs.Transaction.Holding

namespace BookingAccess.Manager

open Service Store OrderedMap

variable {manager : ManagerId} {origin : Store} {deletion : Deletion} {agreed : Prop}
  {before after service : Service}

/-! ### The store while a call revokes -/

theorem Created.lookup {sets : WorkingSets} {entry : Entry}
    (created : Created manager sets entry before after) (id : EntryId) :
    after.store.get? id = if entry.id = id then some entry else before.store.get? id := by
  unfold Store.get?
  rw [created.entries, lookup_insert]

theorem Deleted.lookup {sets : WorkingSets} {entry : Entry}
    (deleted : Deleted manager sets entry before after) (id : EntryId) :
    after.store.get? id = if entry.id = id then none else before.store.get? id := by
  unfold Store.get?
  rw [deleted.entries, lookup_erase]

/-- While a call revokes, no entry comes. -/
theorem Writes.within (writes : Writes manager .revoke before after) {id : EntryId} {entry : Entry}
    (found : after.store.get? id = some entry) : before.store.get? id = some entry := by
  induction writes with
  | refl => exact found
  | tail _ step ih =>
    refine ih ?_
    cases step with
    | quiet quiet => exact quiet.get? id ▸ found
    | deleted deleted =>
      rw [deleted.lookup] at found
      split at found
      · exact nomatch found
      · exact found

/-! ### Putting calls together -/

/-- The store has gone through the steps of a deletion that began with the store `origin`. If what
was handed over agreed with that store, the call has only deleted stored entries and recorded
them. -/
structure Revoking (manager : ManagerId) (origin : Store) (deletion : Deletion) (agreed : Prop)
    (before after : Service) : Prop where
  revoked : Revoked origin deletion before.store after.store
  writes : agreed → Writes manager .revoke before after
  isOpen : IsOpen manager before → IsOpen manager after
  added : HoldsAdded manager before → HoldsAdded manager after

namespace Revoking

instance : IsPreorder Service (Revoking manager origin deletion agreed) where
  refl _ := ⟨.refl, fun _ => .refl, id, id⟩
  trans _ _ _ first second := ⟨first.revoked.trans second.revoked,
    fun holds => (first.writes holds).trans (second.writes holds),
    second.isOpen ∘ first.isOpen, second.added ∘ first.added⟩

theorem ofReading (quiet : Quiet before after) (steady : Steady before after) :
    Revoking manager origin deletion agreed before after where
  revoked := steady.store ▸ .refl
  writes _ := .ofQuiet quiet
  isOpen opened := by rwa [IsOpen, steady.transactions]
  added added := added.mono (by rw [steady.transactions]) fun found => by rwa [steady.store]

instance : KeptByReading (Revoking manager origin deletion agreed) :=
  .mono fun _ _ (reading : Quiet _ _ ∧ Steady _ _) => ofReading reading.1 reading.2

/-- It is enough to agree if more is asked for. -/
theorem mono {less : Prop} (revoking : Revoking manager origin deletion agreed before after)
    (enough : less → agreed) : Revoking manager origin deletion less before after :=
  ⟨revoking.revoked, revoking.writes ∘ enough, revoking.isOpen, revoking.added⟩

/-- No entry comes while a call revokes. -/
theorem within (revoking : Revoking manager origin deletion agreed before after) {id : EntryId}
    {entry : Entry} (found : after.store.get? id = some entry) :
    before.store.get? id = some entry :=
  Revoked.within revoking.revoked found

/-- What is gone stays gone. -/
theorem gone (revoking : Revoking manager origin deletion agreed before after) {id : EntryId}
    (free : before.store.get? id = none) : after.store.get? id = none := by
  cases found : after.store.get? id with
  | none => rfl
  | some kept => exact nomatch free.symm.trans (revoking.within found)

end Revoking

/-- A transaction is open, and what the store has it had when the call began. -/
structure Ready (manager : ManagerId) (origin : Store) (service : Service) : Prop where
  opened : IsOpen manager service
  numbered : origin.Numbered
  entries : ∀ {id entry}, service.store.get? id = some entry → origin.get? id = some entry
  dependencies : service.store.dependencies ⊆ origin.dependencies

namespace Ready

theorem start (opened : IsOpen manager service) (numbered : service.store.Numbered) :
    Ready manager service.store service :=
  ⟨opened, numbered, id, fun _ => id⟩

theorem later (ready : Ready manager origin before)
    (revoking : Revoking manager origin deletion agreed before after) :
    Ready manager origin after :=
  ⟨revoking.isOpen ready.opened, ready.numbered,
    fun found => ready.entries (revoking.within found),
    fun _ member => ready.dependencies (Revoked.dependencies_subset revoking.revoked member)⟩

/-- What agreed with the store when the call began still does. -/
theorem agrees (ready : Ready manager origin service) {entry : Entry}
    (agrees : origin.Agrees entry) : service.store.Agrees entry :=
  fun stored found => agrees stored (ready.entries found)

end Ready

/-! ### One entry and what depends on it -/

/-- An entry may be cut off from a parent if the call is aimed at it. -/
theorem ensures_deleteDependency {parent child : EntryId} (aimed : deletion.AimedAt origin child) :
    Ensures (Action.ofStore (StoreClient.deleteDependency parent child)) service
      (fun _ after => Revoking manager origin deletion agreed service after ∧
        after.store = service.store.deleteDependency parent child)
      (fun _ => Revoking manager origin deletion agreed service) := by
  refine ensures_ofStore.mpr ((ensures_storeChange _ _).mono ?_ ?_)
  · rintro _ after ⟨store, result, rfl⟩
    obtain rfl := Except.ok.inj result
    refine ⟨⟨.single (.cut parent aimed), fun _ => .ofQuiet ?_, id, ?_⟩, rfl⟩
    · exact .of_same rfl rfl rfl rfl rfl rfl
    · exact fun added => added.mono rfl id
  · rintro _ after ⟨_, rfl⟩
    exact .ofReading (.of_same rfl rfl rfl rfl rfl rfl) ⟨rfl, rfl, rfl⟩

/-- After that the entry has no parent. -/
theorem ensures_leaveParents {entry : Entry} {detach : Bool}
    (aimed : detach = true → deletion.AimedAt origin entry.id) :
    Ensures (leaveParents entry detach) service
      (fun _ after => Revoking manager origin deletion agreed service after ∧
        after.store.dependenciesOfChild entry.id = [])
      (fun _ => Revoking manager origin deletion agreed service) := by
  unfold leaveParents
  refine ensures_bind.mpr ((ensures_read _ _).mono ?_ fun _ _ wrong => wrong)
  rintro parents middle ⟨reading, rfl, same⟩
  split
  · split
    · exact ensures_bind.mpr (ensures_throw.mpr reading)
    rename_i detached
    have aimed : deletion.AimedAt origin entry.id := aimed (by simpa using detached)
    refine (Ensures.forM
      (fun later => Revoking manager origin deletion agreed service later ∧
        later.store.dependencies ⊆ service.store.dependencies)
      (fun cut later => ∀ dependency ∈ later.store.dependencies,
        ¬ (dependency.parent = cut.parent ∧ dependency.child = cut.child))
      ⟨reading, same ▸ fun _ => id⟩ ?_).mono ?_ fun _ _ wrong => wrong
    · rintro cut isParent before ⟨revoking, within⟩
      have isChild : cut.child = entry.id := by simpa using (List.mem_filter.mp isParent).2
      refine (ensures_deleteDependency (isChild ▸ aimed)).mono ?_
        fun _ _ step => IsTrans.trans _ _ _ revoking step
      rintro _ after ⟨step, store⟩
      rw [store]
      refine ⟨⟨IsTrans.trans _ _ _ revoking step, fun dependency member => ?_⟩,
        fun dependency member => ?_, fun other gone dependency member => ?_⟩
      · exact within (mem_dependencies_of_deleteDependency.mp member).1
      · exact (mem_dependencies_of_deleteDependency.mp member).2
      · exact gone dependency (mem_dependencies_of_deleteDependency.mp member).1
    · rintro _ after ⟨⟨revoking, within⟩, gone, -⟩
      refine ⟨revoking, List.filter_eq_nil_iff.mpr fun dependency member isChild => ?_⟩
      have listed : dependency ∈ service.store.dependenciesOfChild entry.id :=
        List.mem_filter.mpr ⟨within member, isChild⟩
      exact gone dependency listed dependency member ⟨rfl, rfl⟩
  · rename_i none
    refine ensures_pure.mpr ⟨reading, ?_⟩
    rw [same]
    simpa using none

theorem revokes_removeEntry {entry : Entry} {detaches : Bool} (ready : Ready manager origin service)
    (agrees : agreed → origin.Agrees entry)
    (orphan : service.store.dependenciesOfChild entry.id = [])
    (reached : Reached origin deletion service.store detaches entry.id) :
    Ensures (removeEntry manager entry) service
      (fun _ after => Revoking manager origin deletion agreed service after ∧
        after.store.get? entry.id = none)
      (fun _ => Revoking manager origin deletion agreed service) := by
  refine (ensures_removeEntry ready.opened).mono ?_ fun _ _ reading =>
    .ofReading reading.1 reading.2
  rintro _ after ⟨sets, removed⟩
  have step : RevokeStep origin deletion service.store after.store := by
    -- The entry that goes is the one that is stored under this number.
    obtain ⟨present, -⟩ := deleteEntry_eq_ok_iff.mp removed.result
    obtain ⟨kept, found⟩ := Option.isSome_iff_exists.mp present
    have sameNumber := (ready.numbered _ _ (ready.entries found)).1
    have holds : service.store.Holds kept := by rwa [Holds, sameNumber]
    exact .deleted holds (sameNumber ▸ orphan) (sameNumber ▸ reached) (sameNumber ▸ removed.result)
  refine ⟨⟨.single step, fun holds => ?_, fun _ => removed.isOpen,
    fun added => added.removed removed⟩, ?_⟩
  · exact .single (.deleted (removed.deleted (ready.agrees (agrees holds))))
  · rw [get?_of_deleteEntry removed.result, if_pos rfl]

/-- An entry that was just read is one that the store had when the call began. -/
theorem ensures_readEntry (ready : Ready manager origin service) (id : EntryId) :
    Ensures (Action.ofStore (StoreClient.getEntry id)) service
      (fun found middle => Revoking manager origin deletion agreed service middle ∧
        ∀ entry, found = some entry → origin.Holds entry ∧ entry.id = id)
      (fun _ => Revoking manager origin deletion agreed service) := by
  refine (ensures_read _ _).mono ?_ fun _ _ wrong => wrong
  rintro found middle ⟨reading, rfl, -⟩
  refine ⟨reading, fun entry found => ?_⟩
  have found := ready.entries found
  exact ⟨ready.numbered.holds found, (ready.numbered _ _ found).1⟩

section Tree

variable {delete : Entry → Action DeleteOutcome}
  (deletes : ∀ (entry : Entry) (service : Service), Ready manager origin service →
    origin.Agrees entry → Reached origin deletion service.store false entry.id →
    KeepsAt (Revoking manager origin deletion agreed) service (delete entry))

include deletes

theorem revokes_deleteChild {parent child : Entry} (ready : Ready manager origin service)
    (agrees : origin.Agrees child)
    (reached : Reached origin deletion service.store false child.id) :
    KeepsAt (Revoking manager origin deletion agreed) service
      (deleteChild delete parent child) := by
  unfold deleteChild KeepsAt
  rw [ensures_tryCatch]
  refine Ensures.mono (deletes child service ready agrees reached) (fun _ _ kept => kept) ?_
  intro fault middle revoking
  split
  · have records : Revoking manager origin deletion agreed middle
        { middle with trail := .childRetained parent child :: middle.trail } :=
      .ofReading (.of_same rfl rfl rfl rfl rfl rfl) ⟨rfl, rfl, rfl⟩
    exact IsTrans.trans _ _ _ revoking records
  · exact revoking

/-- The dependencies are on an entry that was reached and is gone. -/
theorem revokes_deleteChildren {parent : Entry} {detach : Bool} {dependencies : List Dependency}
    (ready : Ready manager origin service)
    (linked : ∀ dependency ∈ dependencies, dependency ∈ origin.dependencies ∧
      dependency.parent = parent.id)
    (reached : Reached origin deletion service.store detach parent.id)
    (gone : service.store.get? parent.id = none) :
    KeepsAt (Revoking manager origin deletion agreed) service
      (deleteChildren delete parent detach dependencies) := by
  induction dependencies generalizing service with
  | nil => exact .pure
  | cons dependency dependencies ih =>
    have rest (outcome : DeleteOutcome) (middle : Service)
        (revoking : Revoking manager origin deletion agreed service middle) :
        KeepsAt (Revoking manager origin deletion agreed) middle (do
          return outcome.append (← deleteChildren delete parent detach dependencies)) :=
      .bind (ih (ready.later revoking) (fun other member => linked other (.tail _ member))
        (reached.mono fun _ => revoking.gone) (revoking.gone gone)) fun _ _ _ => .pure
    unfold deleteChildren
    split
    · exact .bind .pure rest
    rename_i followed
    refine .bindKnown (ensures_readEntry ready dependency.child)
      fun found middle revoking stored => ?_
    split
    · exact .bind .pure fun outcome later more =>
        rest outcome later (IsTrans.trans _ _ _ revoking more)
    · rename_i child
      obtain ⟨childHeld, isChild⟩ := stored child rfl
      obtain ⟨member, isParent⟩ := linked dependency (.head _)
      have follows : detach = true → dependency.kind = .cascade := by
        cases kind : dependency.kind <;> simp_all
      have reached : Reached origin deletion middle.store false dependency.child := by
        refine .followed ?_ (isParent ▸ revoking.gone gone) member follows
        exact isParent ▸ reached.mono fun _ => revoking.gone
      refine .bind (revokes_deleteChild deletes (ready.later revoking) childHeld.agrees
        (isChild ▸ reached)) ?_
      exact fun outcome later more => rest outcome later (IsTrans.trans _ _ _ revoking more)

end Tree

theorem revokes_deleteTree {depth : Nat} {detach : Bool} {entry : Entry}
    (ready : Ready manager origin service) (agrees : agreed → origin.Agrees entry)
    (reached : Reached origin deletion service.store detach entry.id)
    (aimed : detach = true → deletion.AimedAt origin entry.id) :
    KeepsAt (Revoking manager origin deletion agreed) service
      (deleteTree depth manager detach entry) := by
  induction depth generalizing service detach entry with
  | zero => exact .throw
  | succ depth ih =>
    unfold deleteTree
    refine .bindKnown (ensures_leaveParents aimed) fun _ first toFirst orphan => ?_
    refine .bindKnown (ensures_read _ _) fun children second toSecond ⟨listed, same⟩ => ?_
    have toSecond := IsTrans.trans _ _ _ toFirst toSecond
    refine .bindKnown (revokes_removeEntry (ready.later toSecond) agrees (same ▸ orphan)
      (reached.mono fun _ => toSecond.gone)) fun _ third toThird gone => ?_
    have toThird := IsTrans.trans _ _ _ toSecond toThird
    have linked : ∀ dependency ∈ children, dependency ∈ origin.dependencies ∧
        dependency.parent = entry.id := by
      intro dependency isChild
      obtain ⟨member, isParent⟩ := List.mem_filter.mp (listed ▸ isChild)
      exact ⟨(ready.later toFirst).dependencies member, beq_iff_eq.mp isParent⟩
    refine .bind (revokes_deleteChildren ?_ (ready.later toThird) linked
      (reached.mono fun _ => toThird.gone) gone) fun below _ _ => .pure
    -- A child is deleted without being detached.
    exact fun _ _ ready agrees reached => ih ready (fun _ => agrees) reached (nomatch ·)

theorem revokes_deleteFrom {detach : Bool} {entry : Entry} (ready : Ready manager origin service)
    (agrees : agreed → origin.Agrees entry) (aimed : deletion.AimedAt origin entry.id)
    (detaches : deletion.detaches = detach) :
    KeepsAt (Revoking manager origin deletion agreed) service
      (deleteFrom manager detach entry) := by
  unfold deleteFrom
  exact .get (revokes_deleteTree ready agrees (detaches ▸ .aimed aimed) fun _ => aimed)

/-! ### Several entries -/

/-- An entry that the store held is aimed at as itself. -/
theorem aimedAt_of_agrees {entry : Entry} (agrees : origin.Agrees entry)
    (aimed : deletion.aims entry) : deletion.AimedAt origin entry.id :=
  fun stored held same => agrees stored (same ▸ held) ▸ aimed

theorem revokes_deleteEach {entries : List Entry} {outcome : DeleteOutcome}
    (ready : Ready manager origin service) (detaches : deletion.detaches = true)
    (aimed : ∀ entry ∈ entries, origin.Agrees entry ∧ deletion.aims entry) :
    KeepsAt (Revoking manager origin deletion agreed) service
      (deleteEach manager outcome entries) := by
  induction entries generalizing service outcome with
  | nil => exact .pure
  | cons entry entries ih =>
    have rest (outcome : DeleteOutcome) (middle : Service)
        (revoking : Revoking manager origin deletion agreed service middle) :
        KeepsAt (Revoking manager origin deletion agreed) middle
          (deleteEach manager outcome entries) :=
      ih (ready.later revoking) fun other member => aimed other (.tail _ member)
    obtain ⟨agrees, isAimed⟩ := aimed entry (.head _)
    unfold deleteEach
    refine .bind (keeps_isRemoved entry.id service) fun removed middle revoking => ?_
    split
    · exact rest outcome middle revoking
    · refine .bind (revokes_deleteFrom (ready.later revoking) (fun _ => agrees)
        (aimedAt_of_agrees agrees isAimed) detaches) fun deleted later more => ?_
      exact rest _ later (IsTrans.trans _ _ _ revoking more)

theorem revokes_deleteAttachment {dependency : Dependency} (ready : Ready manager origin service)
    (detaches : deletion.detaches = false) (aimed : deletion.AimedAt origin dependency.child) :
    KeepsAt (Revoking manager origin deletion agreed) service
      (deleteAttachment manager dependency) := by
  unfold deleteAttachment
  refine .bindKnown (ensures_deleteDependency aimed) fun _ first toFirst _ => ?_
  refine .bind (.ofStore (KeptByReading.storeRead _ _ first)) fun others second toSecond => ?_
  split
  · exact .pure
  · have ready := ready.later (IsTrans.trans _ _ _ toFirst toSecond)
    refine .bindKnown (ensures_readEntry ready dependency.child)
      fun found third toThird stored => ?_
    split
    · exact .pure
    · obtain ⟨held, isChild⟩ := stored _ rfl
      exact revokes_deleteFrom (ready.later toThird) (fun _ => held.agrees) (isChild ▸ aimed)
        detaches

theorem revokes_deleteAttachments {parent : ObjectRef} {dependencies : List Dependency}
    (ready : Ready manager origin service) (detaches : deletion.detaches = false)
    (aimed : ∀ dependency ∈ dependencies, deletion.AimedAt origin dependency.child) :
    KeepsAt (Revoking manager origin deletion agreed) service
      (deleteAttachments manager parent dependencies) := by
  induction dependencies generalizing service with
  | nil => exact .pure
  | cons dependency dependencies ih =>
    have rest (outcome : DeleteOutcome) (middle : Service)
        (revoking : Revoking manager origin deletion agreed service middle) :
        KeepsAt (Revoking manager origin deletion agreed) middle (do
          return outcome.append (← deleteAttachments manager parent dependencies)) :=
      .bind (ih (ready.later revoking) fun other member => aimed other (.tail _ member))
        fun _ _ _ => .pure
    unfold deleteAttachments
    refine .bind (keeps_entry dependency.parent service) fun holder middle revoking => ?_
    have deletes : KeepsAt (Revoking manager origin deletion agreed) middle
        (deleteAttachment manager dependency) :=
      revokes_deleteAttachment (ready.later revoking) detaches (aimed dependency (.head _))
    have after (outcome : DeleteOutcome) (later : Service)
        (more : Revoking manager origin deletion agreed middle later) :=
      rest outcome later (IsTrans.trans _ _ _ revoking more)
    split
    · exact .bind .pure after
    · split
      · exact .bind deletes after
      · exact .bind .pure after

/-! ### The calls -/

theorem revokes_deleteEntry {entry : Entry} {detach : Bool} (numbered : service.store.Numbered) :
    KeepsAt (Revoking manager service.store (.ofEntry entry.id detach)
      (service.store.Agrees entry)) service (deleteEntry manager entry detach) :=
  keepsAt_requireTransaction_bind fun opened =>
    revokes_deleteFrom (.start opened numbered) id (fun _ _ => id) rfl

/-- The entries that the manager has added have to agree with the store. -/
theorem revokes_deleteEntriesForObject {object : ObjectRef} (numbered : service.store.Numbered)
    (added : ∀ entry, Sees manager service entry → service.store.Agrees entry) :
    KeepsAt (Revoking manager service.store (.ofObject object true) agreed) service
      (deleteEntriesForObject manager object) := by
  refine keepsAt_requireTransaction_bind fun opened => ?_
  have ready : Ready manager service.store service := .start opened numbered
  refine .bindKnown (ensures_entries numbered object) fun listed middle revoking seen => ?_
  exact revokes_deleteEach (ready.later revoking) rfl fun entry member =>
    (seen entry member).imp_left (added entry)

theorem revokes_deleteEntriesForChild {parent child : ObjectRef}
    (numbered : service.store.Numbered) :
    KeepsAt (Revoking manager service.store (.ofObject child false) agreed) service
      (deleteEntriesForChild manager parent child) := by
  refine keepsAt_requireTransaction_bind fun opened => ?_
  have ready : Ready manager service.store service := .start opened numbered
  refine .bindKnown (ensures_read _ _) fun attached middle revoking ⟨listed, _⟩ => ?_
  refine revokes_deleteAttachments (ready.later revoking) rfl
    fun dependency member entry held same => ?_
  obtain ⟨-, onChild⟩ := List.mem_filter.mp (listed ▸ member)
  rw [← same, held] at onChild
  exact beq_iff_eq.mp onChild

end BookingAccess.Manager
