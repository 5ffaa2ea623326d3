/-
**What a grant stores.**

As long as nobody else writes to the store, a grant that is stored already is given back and nothing
changes. Any other grant is stored with all that ensues from it, however the objects are linked: new
entries for exactly the grants that ensue, each linked to the entries of all the grants that it
leads to.

* `createEntry_ensues`: both cases.
-/

import BookingAccess.Proofs.Grants.Deletion
import BookingAccess.Proofs.Transaction.Alone
import BookingAccess.Proofs.Transaction.Spreading

namespace BookingAccess

open Service Manager Store

variable {manager : ManagerId} {start service : Service} {past : List Occurrence} {entry : Entry}
  {identity : Identity} {object : ObjectRef} {role : Role}

/-! ### A grant that is there -/

/-- Questions were put, and nothing else has happened. -/
def Inquired (before after : Service) : Prop :=
  after = { before with calls := after.calls }

instance : IsPreorder Service Inquired where
  refl _ := rfl
  trans _ _ _ first second := by
    unfold Inquired at *
    rw [second, first]

theorem inquired_read {α : Type} (kind : StoreCall) (answer : Store → α) :
    Keeps Inquired (StoreClient.read kind answer) := by
  intro service
  refine (ensures_storeCall kind _).mono ?_ fun _ _ failed => failed.2 ▸ rfl
  rintro _ _ ⟨store, answered, rfl⟩
  obtain ⟨-, rfl⟩ := Prod.mk.inj (Except.ok.inj answered)
  rfl

theorem inquired_getEntry : Keeps Inquired (getEntry manager identity object role) := by
  unfold getEntry currentSets
  refine .bind (.bind .get fun _ => .pure) fun sets => ?_
  split
  · exact .pure
  · exact .bind (.ofStore (inquired_read _ _)) fun _ => .pure

/-- **A grant that is stored is given back.** -/
theorem ensures_createEntry_of_holds (calm : Calm manager service)
    (holds : service.store.Holds entry) (notRoot : entry.identity.isRoot = false)
    (allows : service.registry.allows entry.object.objectClass entry.role = true) :
    Ensures (Manager.createEntry manager entry.identity entry.object entry.role) service
      (fun answer after => answer = some entry ∧ Inquired service after) fun _ _ => False := by
  unfold Manager.createEntry
  simp only [notRoot]
  refine (opened_requireTransaction calm.opened).followed ?_
  rintro _ service rfl
  refine ensures_bind.mpr ((ensures_validateRole _ _).mono ?_ ?_)
  rotate_left
  · rintro _ _ ⟨refused, -⟩
    exact nomatch allows.symm.trans refused
  rintro _ service ⟨-, rfl⟩
  refine ensures_bind.mpr (((calm_getEntry calm).and (inquired_getEntry service)).mono ?_
    fun _ _ => And.left)
  rintro found after ⟨⟨isFound, -⟩, inquired⟩
  rw [find?_of_holds calm.intact holds] at isFound
  subst isFound
  exact ensures_pure.mpr ⟨rfl, inquired⟩

/-! ### Any grant -/

/-- **A grant is stored with exactly what ensues from it.** While the manager is alone with an
intact store, the transaction is open and no collaborator fails, a grant that the class of the
object allows succeeds, whatever links there are between objects. If the identity has the grant
already, its entry is given back and nothing changes. Otherwise the entry that is given back is new,
and the new entries and dependencies are those that ensue. -/
theorem createEntry_ensues (intact : start.store.Intact)
    (idle : start.transactions[manager]? = none)
    (run : Run (·.OthersSpareStore manager) start past service) (opened : IsOpen manager service)
    (reachable : service.outages = .none) (notRoot : identity.isRoot = false)
    (allows : service.registry.allows object.objectClass role = true) :
    (∀ entry, service.store.Holds entry → entry.identity = identity →
      entry.grant = ⟨object, role⟩ →
        ∃ after, (createEntry manager identity object role).run.run service =
          (.ok (some entry), after) ∧ Inquired service after) ∧
    (service.store.Unstored identity ⟨object, role⟩ →
      ∃ root after, (createEntry manager identity object role).run.run service =
          (.ok (some root), after) ∧
        root.identity = identity ∧ root.grant = ⟨object, role⟩ ∧
        IsNew service.store after.store root ∧
        Ensued service.registry service.graph identity ⟨object, role⟩ service.store
          after.store) := by
  have calm : Calm manager service := calm_of_run intact idle run opened reachable
  refine ⟨?_, fun unstored => ?_⟩
  · rintro entry holds rfl sameGrant
    obtain ⟨rfl, rfl⟩ := Grant.mk.inj sameGrant
    obtain ⟨answer, answered, rfl, inquired⟩ :=
      (ensures_createEntry_of_holds calm holds notRoot allows).exists_answer
    exact ⟨_, Prod.ext answered rfl, inquired⟩
  · have absent : service.store.find? identity object role = none := by
      refine calm.intact.numbered.find?_eq_none_iff.mpr ?_
      rintro entry holds ⟨sameIdentity, rfl, rfl⟩
      exact unstored entry holds sameIdentity rfl
    obtain ⟨root, after, created⟩ := (exists_created_iff calm absent).mpr ⟨notRoot, allows⟩
    rcases (spreads_createEntry calm absent).of_ok created with ⟨-, nothing⟩ | ⟨-, _, same, sprouts⟩
    · exact nomatch nothing
    · obtain rfl := Option.some.inj same
      exact ⟨root, after, created, sprouts.sameIdentity, sprouts.isGrant, sprouts.isNew,
        sprouts.ensued⟩

/-- A grant that has come round to the part is given back. A grant to another user goes round the
same circle. -/
theorem createEntry_ensues_circle :
    (∃ after, (Manager.createEntry 0 (.user "1") .part .reader).run.run .circle =
      (.ok (some ⟨2, .user "1", .part, .reader⟩), after)) ∧
    ∃ root after, (Manager.createEntry 0 (.user "2") .sample .reader).run.run .circle =
        (.ok (some root), after) ∧
      IsNew Service.circle.store after.store root ∧
      after.store.entryList.drop 2 =
        [⟨3, .user "2", .sample, .reader⟩, ⟨4, .user "2", .part, .reader⟩] ∧
      after.store.dependencies.drop 2 = [⟨4, 3, .cascade⟩, ⟨3, 4, .cascade⟩] := by
  have run : Run (·.OthersSpareStore 0) .sampleInCircle _ .circle := .ofEvents (by decide +kernel)
  have idle : Service.sampleInCircle.transactions[(0 : ManagerId)]? = none := by decide +kernel
  have held : Service.circle.store.Holds ⟨2, .user "1", .part, .reader⟩ := by decide +kernel
  have unstored : Service.circle.store.Unstored (.user "2") ⟨.sample, .reader⟩ := by
    intro entry holds isSecond
    have nobody : ∀ entry ∈ Service.circle.store.entryList, entry.identity ≠ .user "2" := by
      decide +kernel
    exact absurd isSecond
      (nobody entry (Service.intact_circle.numbered.mem_entryList.mpr holds))
  have opened := Service.unhindered_circle.opened
  obtain ⟨after, found, -⟩ := (createEntry_ensues .empty idle run opened rfl (by decide)
    (by decide +kernel)).1 _ held rfl rfl
  obtain ⟨root, last, created, -, -, isNew, -⟩ := (createEntry_ensues .empty idle run opened rfl
    (by decide) (by decide +kernel)).2 unstored
  have stored : let last := ((Manager.createEntry 0 (.user "2") .sample .reader).run.run .circle).2
      last.store.entryList.drop 2 =
          [⟨3, .user "2", .sample, .reader⟩, ⟨4, .user "2", .part, .reader⟩] ∧
        last.store.dependencies.drop 2 = [⟨4, 3, .cascade⟩, ⟨3, 4, .cascade⟩] := by
    decide +kernel
  rw [created] at stored
  exact ⟨⟨after, found⟩, root, last, created, isNew, stored⟩

end BookingAccess
