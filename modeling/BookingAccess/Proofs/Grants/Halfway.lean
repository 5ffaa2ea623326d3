/-
**Failing halfway.**

A grant on a child object is linked to its parent entry last, after the child entry was stored and
propagated. So when the parent entry is gone by then, the call fails with the new entries in the
store. In every other case that a single manager can come to, a call that fails has written nothing.

* `Proceeds`: a call that comes to store a new entry; `Undisturbed`: nothing was written;
* `reachable_propagateToChild`: how such a call ends, whatever the working sets say of the store;
* `propagateToChild_halfway`: after any run.
-/

import BookingAccess.Proofs.Cache.Mindful
import BookingAccess.Proofs.Grants.Lawful
import BookingAccess.Proofs.Transaction.Alone
import BookingAccess.Proofs.Transaction.Passing

namespace BookingAccess

namespace Manager

open Service Store

variable {manager : ManagerId} {before after service : Service} {parent child : Entry}
  {object : ObjectRef} {role : Role} {kind : DependencyKind}

/-! ### Single steps -/

/-- A call that grants keeps what is stored. -/
theorem Writes.kept (writes : Writes manager .grant before after)
    (numbered : before.store.Numbered) :
    after.store.Numbered ∧ ∀ entry, before.store.Holds entry → after.store.Holds entry := by
  induction writes with
  | refl => exact ⟨numbered, fun _ => id⟩
  | tail _ step ih =>
    obtain ⟨numbered, kept⟩ := ih
    cases step with
    | quiet quiet =>
      have untouched := Untouched.ofQuiet quiet
      exact ⟨untouched.numbered numbered,
        fun entry holds => untouched.holds_iff.mpr (kept entry holds)⟩
    | created created =>
      refine ⟨fun id entry found => ?_, fun entry holds => ?_⟩
      · rw [created.lookup] at found
        rw [created.lastId]
        split at found
        · rename_i same
          obtain rfl := Option.some.inj found
          exact ⟨same, same ▸ Nat.le_of_eq created.number⟩
        · exact (numbered id entry found).imp_right Nat.le_succ_of_le
      · have earlier := kept entry holds
        refine (created.lookup entry.id).trans ((if_neg fun same => ?_).trans earlier)
        have given := (numbered _ _ earlier).2
        rw [← same, created.number] at given
        exact Nat.not_succ_le_self _ given

/-- The manager looks among the entries that it has added first, and then in the store. -/
theorem reachable_getEntry (reachable : service.outages = .none) (identity : Identity)
    (object : ObjectRef) (role : Role) :
    Ensures (getEntry manager identity object role) service
      (fun found after => found =
        ((setsOf manager service).added.values.find? (·.grants identity object role)).or
          ((service.store.find? identity object role).filter fun entry =>
            !(setsOf manager service).removed.contains entry.id) ∧ Still service after)
      (fun _ _ => False) := by
  unfold getEntry currentSets
  simp only [ensures_bind, ensures_get, ensures_pure]
  split
  · rename_i entry added
    exact ensures_pure.mpr ⟨by rw [setsOf, added]; rfl, refl _⟩
  · rename_i unadded
    simp only [ensures_bind, ensures_pure]
    refine (reachable_read reachable).mono ?_ fun _ _ => id
    rintro _ after ⟨rfl, still⟩
    exact ⟨by rw [setsOf, unadded]; rfl, still⟩

/-- Two entries are linked in the end, or nothing has been written. -/
theorem reachable_linkEntries (reachable : service.outages = .none) :
    Ensures (linkEntries parent child kind) service
      (fun _ after => ∃ link ∈ after.store.dependencies, link.parent = parent.id)
      (fun _ => Still service) := by
  unfold linkEntries
  refine (reachable_read reachable).followed ?_
  rintro found middle ⟨rfl, still⟩
  have reachable : middle.outages = .none := still.outages.trans reachable
  split
  · simp only [ensures_bind, ensures_record]
    cases answered : middle.store.createDependency ⟨parent.id, child.id, kind⟩ with
    | error cause =>
      refine (reachable_refused reachable answered).mono (fun _ _ => False.elim) ?_
      rintro _ _ ⟨-, stillAfter⟩
      exact IsTrans.trans _ _ _ still stillAfter
    | ok store =>
      refine (reachable_change reachable answered).mono ?_ fun _ _ => False.elim
      rintro _ _ rfl
      obtain ⟨-, -, -, rfl⟩ := createDependency_eq_ok_iff.mp answered
      exact ⟨_, List.mem_append_right _ (.head _), rfl⟩
  · rename_i known
    obtain ⟨link, isFound⟩ := Option.ne_none_iff_exists'.mp (mt Option.isNone_iff_eq_none.mpr known)
    refine ensures_pure.mpr ⟨link, ?_, ?_⟩
    · rw [still.store]
      exact List.mem_of_find?_eq_some isFound
    · have suits := List.find?_some isFound
      exact ((link.links_iff _ _).mp suits).1

/-! ### The call -/

/-- The call comes to store a new entry: the transaction is open, the role of the parent entry
propagates, the class of the object has the role, and there is no such entry to be found. -/
structure Proceeds (manager : ManagerId) (service : Service) (parent : Entry) (object : ObjectRef)
    (role : Role) : Prop where
  opened : IsOpen manager service
  propagates : service.registry.isPropagatable parent.object.objectClass parent.role = true
  allows : service.registry.allows object.objectClass role = true
  unstored : service.store.Unstored parent.identity ⟨object, role⟩
  unadded : ∀ entry ∈ (setsOf manager service).added.values, entry.identity = parent.identity →
    entry.grant ≠ ⟨object, role⟩

/-- The grant is stored, and it was not before. -/
def Leaves (identity : Identity) (grant : Grant) (before after : Service) : Prop :=
  ∃ entry, IsNew before.store after.store entry ∧ entry.identity = identity ∧ entry.grant = grant

/-- There is no entry with this grant in the list. -/
theorem find?_grants_eq_none_iff {entries : List Entry} {identity : Identity} :
    entries.find? (·.grants identity object role) = none ↔
      ∀ entry ∈ entries, entry.identity = identity → entry.grant ≠ ⟨object, role⟩ := by
  rw [List.find?_eq_none]
  refine forall₂_congr fun entry _ => ?_
  rw [entry.grants_iff, not_and, Entry.grant, ne_eq, Grant.mk.injEq]

theorem find?_eq_none_iff_unstored (numbered : service.store.Numbered) {identity : Identity} :
    service.store.find? identity object role = none ↔
      service.store.Unstored identity ⟨object, role⟩ := by
  refine find?_grants_eq_none_iff.trans (forall_congr' fun entry => ?_)
  rw [numbered.mem_entryList]

/-- A call that does not come to store an entry writes nothing before it fails. -/
theorem reachable_propagateToChild_of_not (reachable : service.outages = .none)
    (numbered : service.store.Numbered) (kind : DependencyKind)
    (stops : ¬ Proceeds manager service parent object role) :
    Ensures (propagateToChild manager parent object role kind) service (fun _ _ => True)
      (fun _ => Steady service) := by
  unfold propagateToChild grantChild
  refine ensures_bind.mpr (ensures_requireTransaction.mono ?_ fun _ _ => .ofEq)
  rintro _ service ⟨opened, rfl⟩
  simp only [ensures_bind, ensures_get]
  split
  · exact ensures_pure.mpr trivial
  rename_i propagates
  refine ensures_bind.mpr ((ensures_validateRole object role).mono ?_
    fun _ _ wrong => .ofEq wrong.2)
  rintro _ service ⟨allows, rfl⟩
  refine (reachable_getEntry reachable _ _ _).followed ?_
  rintro found middle ⟨isFound, still⟩
  have links (entry : Entry) : Ensures (do
      linkEntries parent entry kind
      return some entry) middle (fun _ _ => True) (fun _ => Steady service) := by
    simp only [ensures_bind, ensures_pure]
    refine (reachable_linkEntries (still.outages.trans reachable)).mono (fun _ _ _ => trivial) ?_
    exact fun _ _ stillAfter => (IsTrans.trans _ _ _ still stillAfter).steady
  split
  · rw [pure_bind]
    exact links _
  · -- The entry that was not found is stored after all, so that it is not stored again.
    have opened' : IsOpen manager middle := by rw [IsOpen, still.transactions]; exact opened
    refine ensures_bind.mpr ((ensures_insertEntry _ _ _ opened').mono ?_ ?_)
    · rintro entry _ ⟨-, stored⟩
      refine absurd ⟨opened, by simpa using propagates, allows, ?_, ?_⟩ stops
      · rw [still.store] at stored
        exact (find?_eq_none_iff_unstored numbered).mp (createEntry_eq_ok_iff.mp stored).1
      · exact find?_grants_eq_none_iff.mp (Option.or_eq_none_iff.mp isFound.symm).1
    · exact fun _ _ wrong => IsTrans.trans _ _ _ still.steady wrong.2

/-- **A call that comes to store an entry leaves it stored**, and it does not succeed without a link
to the parent entry. -/
theorem reachable_propagateToChild (reachable : service.outages = .none)
    (numbered : service.store.Numbered) (kind : DependencyKind)
    (proceeds : Proceeds manager service parent object role) :
    Ensures (propagateToChild manager parent object role kind) service
      (fun _ after => ∃ link ∈ after.store.dependencies, link.parent = parent.id)
      (fun _ => Leaves parent.identity ⟨object, role⟩ service) := by
  unfold propagateToChild grantChild
  refine (opened_requireTransaction proceeds.opened).followed ?_
  rintro _ service rfl
  simp only [ensures_bind, ensures_get, proceeds.propagates, Bool.not_true, Bool.false_eq_true,
    if_false]
  refine (ensures_validateRole object role).mono ?_ ?_
  rotate_left
  · rintro _ _ ⟨refused, -⟩
    exact absurd (refused.symm.trans proceeds.allows) Bool.false_ne_true
  rintro _ service ⟨-, rfl⟩
  refine (reachable_getEntry reachable _ _ _).mono ?_ fun _ _ => False.elim
  rintro found middle ⟨isFound, still⟩
  have absent := (find?_eq_none_iff_unstored numbered).mpr proceeds.unstored
  rw [absent, find?_grants_eq_none_iff.mpr proceeds.unadded] at isFound
  subst isFound
  have opened : IsOpen manager middle := by rw [IsOpen, still.transactions]; exact proceeds.opened
  have same : KeepsAt SameSurroundings middle (insertEntry manager parent.identity object role) :=
    KeptByManaging.insertEntry _ _ _ middle
  refine ensures_bind.mpr ((((reachable_insertEntry (still.outages.trans reachable) opened
    (still.store ▸ absent)).and (ensures_insertEntry _ _ _ opened)).and same).mono ?_
    fun _ _ wrong => wrong.1.1.elim)
  rintro entry extended ⟨⟨-, ⟨_, created⟩, stored⟩, toExtended⟩
  rw [still.store] at stored
  have atExtended : extended.store.Numbered := numbered.createEntry stored
  have isOpen : IsOpen manager extended := (WriteStep.created created).isOpen opened
  -- Whatever happens from here on, the new entry stays.
  have leaves {later : Service} (writes : Writes manager .grant extended later) :
      Leaves parent.identity ⟨object, role⟩ service later := by
    have heldFirst : extended.store.Holds entry :=
      (numbered.holds_createEntry stored).mpr (.inl rfl)
    have held := (writes.kept atExtended).2 entry heldFirst
    obtain ⟨-, rfl, -⟩ := createEntry_eq_ok_iff.mp stored
    exact ⟨_, ⟨held, fun earlier => proceeds.unstored _ earlier rfl rfl⟩, rfl, rfl⟩
  have writes : Keeps (Inside manager (Writes manager .grant)) (propagateFrom manager entry) :=
    keeps_propagateFrom entry
  have stays : Keeps SameSurroundings (propagateFrom manager entry) := manages_propagateFrom entry
  refine ensures_bind.mpr (((writes extended).and (stays extended)).mono ?_
    fun _ _ wrong => leaves (wrong.1 isOpen))
  rintro _ grown ⟨below, toGrown⟩
  rw [pure_bind]
  simp only [ensures_bind, ensures_pure]
  have reachable : grown.outages = .none :=
    toGrown.outages.trans (toExtended.outages.trans (still.outages.trans reachable))
  refine (reachable_linkEntries reachable).mono (fun _ _ => id) ?_
  rintro _ after stillAfter
  obtain ⟨other, isNew, suits⟩ := leaves (below isOpen)
  exact ⟨other, ⟨stillAfter.store ▸ isNew.held, isNew.fresh⟩, suits⟩

/-- Nothing that the manager writes has changed. -/
structure Undisturbed (manager : ManagerId) (before after : Service) : Prop where
  entries : after.store.entries = before.store.entries
  dependencies : after.store.dependencies = before.store.dependencies
  workingSets : after.transactions[manager]? = before.transactions[manager]?

theorem Undisturbed.ofSteady (steady : Steady before after) : Undisturbed manager before after :=
  ⟨congrArg _ steady.store, congrArg _ steady.store, congrArg (·[manager]?) steady.transactions⟩

theorem Leaves.not_undisturbed {identity : Identity} {grant : Grant}
    (leaves : Leaves identity grant before after) : ¬ Undisturbed manager before after := by
  obtain ⟨entry, isNew, -⟩ := leaves
  exact fun same => isNew.fresh ((holds_congr same.entries).mp isNew.held)

/-- While nothing stands in the way, whether the parent entry is stored decides. -/
theorem calm_propagateToChild (calm : Calm manager service) (kind : DependencyKind)
    (proceeds : Proceeds manager service parent object role) :
    Ensures (propagateToChild manager parent object role kind) service
      (fun answer _ => ∃ entry, answer = some entry)
      (fun fault after => fault = .storage (.entryNotFound parent.id) ∧
        ¬ service.store.Holds parent ∧
        Ensued service.registry service.graph parent.identity ⟨object, role⟩ service.store
          after.store) := by
  refine (answered_propagateToChild calm proceeds.propagates proceeds.allows).mono
    (fun _ _ ⟨entry, same, _⟩ => ⟨entry, same⟩) ?_
  rintro _ after ⟨rfl, entry, orphaned⟩
  have unstored := proceeds.unstored
  rw [← orphaned.sameIdentity, ← orphaned.isGrant] at unstored ⊢
  exact ⟨rfl, orphaned.not_holds calm.intact, orphaned.obtained.obtains.ensued calm.intact unstored⟩

end Manager

open Service Manager Store

variable {manager : ManagerId} {start service : Service} {past : List Occurrence}
  {rule : Occurrence → Prop} {parent : Entry} {child : ObjectRef} {role : Role}
  {kind : DependencyKind}

/-- An entry that is gone is not linked to another one any more. -/
theorem Manager.fails_of_gone (intact : service.store.Intact) (known : service.store.Knows parent)
    (gone : service.store.get? parent.id = none)
    (ensured : Ensures (propagateToChild manager parent child role kind) service
      (fun _ after => ∃ link ∈ after.store.dependencies, link.parent = parent.id)
      (fun _ => Leaves parent.identity ⟨child, role⟩ service)) :
    ∃ fault after, (propagateToChild manager parent child role kind).run.run service =
      (.error fault, after) ∧ Leaves parent.identity ⟨child, role⟩ service after := by
  rcases result : (propagateToChild manager parent child role kind).run.run service with
    ⟨fault | answer, after⟩
  · exact ⟨fault, after, rfl, ensured.of_error result⟩
  · obtain ⟨link, member, isParent⟩ := ensured.of_ok result
    have stays (property : Store → Prop) [StoreInvariant property] :
        Keeps (Stays property) (propagateToChild manager parent child role kind) :=
      manages_propagateToChild parent child role kind
    have atAfter : after.store.Intact := (stays Intact service).of_ok result intact
    have follows : service.store.Follows after.store :=
      (stays (Follows service.store) service).of_ok result (.refl intact.numbered)
    obtain ⟨holder, found⟩ := Option.isSome_iff_exists.mp (atAfter.anchored link member).1
    have held := atAfter.numbered.holds found
    have same : holder.id = parent.id := (atAfter.numbered _ _ found).1.trans isParent
    have earlier : service.store.get? holder.id = some holder :=
      follows.heldBefore (same ▸ known.given) held
    rw [same, gone] at earlier
    exact absurd earlier.symm (Option.some_ne_none _)

/-- **A grant on a child object that fails has written nothing, unless it comes to store an entry
for a parent entry that is gone.** After any run, as long as no collaborator fails, for an entry
that was ever stored: a call that fails leaves the entries, the dependencies and the working sets as
they were exactly if it does not come to store an entry. If it does and the parent entry is gone, it
fails with that entry stored. If moreover nobody else has written to the store, it fails only then,
and what it leaves is exactly what ensues from the grant. -/
theorem propagateToChild_halfway (empty : start.store = .empty) (idle : start.Idle)
    (run : Run rule start past service)
    (held : EntriesHeld
      (⟨service, .call (.manage manager (.propagateToChild parent child role kind))⟩ :: past))
    (reachable : service.outages = .none) :
    (∀ fault after, (propagateToChild manager parent child role kind).run.run service =
        (.error fault, after) →
      (Undisturbed manager service after ↔ ¬ Proceeds manager service parent child role)) ∧
    (Proceeds manager service parent child role → service.store.get? parent.id = none →
      ∃ fault after, (propagateToChild manager parent child role kind).run.run service =
          (.error fault, after) ∧
        Leaves parent.identity ⟨child, role⟩ service after) ∧
    ((∀ occurrence ∈ past, occurrence.OthersSpareStore manager) →
      Proceeds manager service parent child role →
        (service.store.Holds parent → ∃ entry after,
          (propagateToChild manager parent child role kind).run.run service =
            (.ok (some entry), after)) ∧
        (service.store.get? parent.id = none → ∃ after,
          (propagateToChild manager parent child role kind).run.run service =
              (.error (.storage (.entryNotFound parent.id)), after) ∧
            Ensued service.registry service.graph parent.identity ⟨child, role⟩ service.store
              after.store)) := by
  have startIntact : start.store.Intact := empty ▸ .empty
  have intact : service.store.Intact := Stays.run run startIntact
  obtain ⟨given, proper⟩ := proper_of_run empty idle run held.2
  have known := proper.knows (proper.toAccounted.hands held manager _ rfl parent (.head _))
  have proceeding (proceeds : Proceeds manager service parent child role) :=
    reachable_propagateToChild reachable intact.numbered kind proceeds
  refine ⟨fun fault after failed => ?_, fun proceeds gone =>
    fails_of_gone intact known gone (proceeding proceeds), fun alone proceeds => ?_⟩
  · by_cases proceeds : Proceeds manager service parent child role
    · exact iff_of_false ((proceeding proceeds).of_error failed).not_undisturbed
        (not_not_intro proceeds)
    · have stopped := reachable_propagateToChild_of_not reachable intact.numbered kind
        proceeds
      exact iff_of_true (.ofSteady (stopped.of_error failed)) proceeds
  · have calm : Calm manager service :=
      calm_of_run startIntact (idle manager) (run.ofPast alone) proceeds.opened reachable
    have decides := calm_propagateToChild calm kind proceeds
    constructor
    · intro stored
      rcases result : (propagateToChild manager parent child role kind).run.run service with
        ⟨fault | answer, after⟩
      · exact absurd stored (decides.of_error result).2.1
      · obtain ⟨entry, rfl⟩ := decides.of_ok result
        exact ⟨entry, after, rfl⟩
    · intro gone
      obtain ⟨fault, after, failed, -⟩ := fails_of_gone intact known gone (proceeding proceeds)
      obtain ⟨rfl, -, ensued⟩ := decides.of_error failed
      exact ⟨after, failed, ensued⟩

/-- A grant is made and taken back. -/
def bereftEvents : List Event := [
  .call (.manage 0 .begin),
  .call (.manage 0 (.createEntry (.user "1") ⟨.resource, 3⟩ .reader)),
  .call (.manage 0 (.deleteEntry ⟨1, .user "1", ⟨.resource, 3⟩, .reader⟩ false)),
  .outages .none]

/-- The state after that. -/
def Service.bereft : Service := (replay [] .sampleWithPart bereftEvents).2

/-- The entry that is gone is passed on. -/
def belated : Task :=
  .propagateToChild ⟨1, .user "1", ⟨.resource, 3⟩, .reader⟩ .sample .reader .cascade

theorem Service.proceeds_bereft :
    Proceeds 0 .bereft ⟨1, .user "1", ⟨.resource, 3⟩, .reader⟩ .sample .reader where
  opened := by decide +kernel
  propagates := by decide +kernel
  allows := by decide +kernel
  unstored entry holds := by
    have none : Service.bereft.store.entries = ∅ := by decide +kernel
    rw [Holds, get?, none, Std.ExtTreeMap.getElem?_empty] at holds
    exact absurd holds.symm (Option.some_ne_none _)
  unadded := by decide +kernel

/-- The call leaves what ensues from the grant, and fails. -/
theorem propagateToChild_halfway_bereft :
    ∃ after, (propagateToChild 0 ⟨1, .user "1", ⟨.resource, 3⟩, .reader⟩ .sample .reader
        .cascade).run.run .bereft = (.error (.storage (.entryNotFound 1)), after) ∧
      ¬ Undisturbed 0 .bereft after ∧
      Ensued Service.bereft.registry Service.bereft.graph (.user "1") ⟨.sample, .reader⟩
        Service.bereft.store after.store := by
  have idle : Service.sampleWithPart.Idle := by decide +kernel
  have held : EntriesHeld (⟨.bereft, .call (.manage 0 belated)⟩ ::
      (replay [] .sampleWithPart bereftEvents).1) := by decide +kernel
  have alone : ∀ occurrence ∈ (replay [] .sampleWithPart bereftEvents).1,
      occurrence.OthersSpareStore 0 := by decide +kernel
  have gone : Service.bereft.store.get? 1 = none := by decide +kernel
  obtain ⟨disturbs, -, leaves⟩ :=
    propagateToChild_halfway rfl idle (.replayed _ bereftEvents) held rfl
  obtain ⟨after, failed, ensued⟩ := (leaves alone Service.proceeds_bereft).2 gone
  refine ⟨after, failed, fun same => ?_, ensued⟩
  exact (disturbs _ after failed).mp same Service.proceeds_bereft

/-- The grant on the object and the one on its part are there, although the call has failed and
there was no grant before. -/
theorem gone_grant_passed_on :
    EntriesHeld (⟨.bereft, .call (.manage 0 belated)⟩ ::
      (replay [] .sampleWithPart bereftEvents).1) ∧
    Service.bereft.outages = .none ∧ Service.bereft.store.entryList = [] ∧
    ∃ fault after, (propagateToChild 0 ⟨1, .user "1", ⟨.resource, 3⟩, .reader⟩ .sample .reader
        .cascade).run.run .bereft = (.error fault, after) ∧
      after.store.entryList =
        [⟨2, .user "1", .sample, .reader⟩, ⟨3, .user "1", .part, .reader⟩] ∧
      ¬ Undisturbed 0 .bereft after := by
  have none : Service.bereft.store.entryList = [] := by decide +kernel
  have left : let call := (propagateToChild 0 ⟨1, .user "1", ⟨.resource, 3⟩, .reader⟩ .sample
        .reader .cascade).run.run Service.bereft
      call.1.toOption = Option.none ∧ call.2.store.entryList =
        [⟨2, .user "1", .sample, .reader⟩, ⟨3, .user "1", .part, .reader⟩] := by
    decide +kernel
  refine ⟨by decide +kernel, rfl, none, ?_⟩
  generalize (propagateToChild 0 _ _ _ _).run.run Service.bereft = result at left
  obtain ⟨fault | answer, after⟩ := result
  · refine ⟨fault, after, rfl, left.2, fun same => ?_⟩
    have unchanged : after.store.entryList = Service.bereft.store.entryList :=
      congrArg Std.ExtTreeMap.values same.entries
    exact nomatch left.2.symm.trans (unchanged.trans none)
  · exact nomatch left.1

end BookingAccess
