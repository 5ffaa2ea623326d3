/-
**What a grant links.**

A call that grants stores entries for identities that it is made for, with roles that the registry
allows, and links entries of one identity. It can go by the entries that it was handed or has found:
inside a transaction the store knows them, and an entry that it knows is the one that it holds under
this number, if it holds any.

* `Surveyed`: a manager sees entries as the store knows them;
* `Granting`: the steps of the store, which keep that;
* `grants_createEntry`, `grants_propagateToChild`, `grants_createEntriesForChild`: the calls.
-/

import BookingAccess.Proofs.Store.Steps
import BookingAccess.Proofs.Transaction.Granting
import BookingAccess.Proofs.Transaction.WorkingSets

namespace BookingAccess.Manager

open Service Store

variable {manager : ManagerId} {who : Identity → Prop} {before middle after service : Service}

/-! ### What a manager sees -/

/-- A transaction is open, and the store knows the entries that were added in it. -/
structure Surveyed (manager : ManagerId) (service : Service) : Prop where
  opened : IsOpen manager service
  numbered : service.store.Numbered
  added : ∀ sets, service.transactions[manager]? = some sets →
    ∀ entry ∈ sets.added.values, service.store.Knows entry

theorem Surveyed.knows (surveyed : Surveyed manager service) {entry : Entry}
    (seen : Sees manager service entry) : service.store.Knows entry :=
  seen.elim surveyed.numbered.knows fun ⟨sets, opened, added⟩ =>
    surveyed.added sets opened entry added

/-- The store has gone through the steps of a grant to some of these identities. -/
structure Granting (manager : ManagerId) (who : Identity → Prop) (before after : Service) :
    Prop where
  registry : after.registry = before.registry
  granted : Store.Granted before.registry who before.store after.store
  surveyed : Surveyed manager before → Surveyed manager after

namespace Granting

instance : IsPreorder Service (Granting manager who) where
  refl _ := ⟨rfl, .refl, id⟩
  trans _ _ _ first second := ⟨second.registry.trans first.registry,
    first.granted.trans (first.registry ▸ second.granted), second.surveyed ∘ first.surveyed⟩

theorem ofSteady (steady : Steady before after) : Granting manager who before after where
  registry := steady.registry
  granted := steady.store ▸ .refl
  surveyed surveyed := by
    refine ⟨?_, steady.store ▸ surveyed.numbered, ?_⟩
    · rw [IsOpen, steady.transactions]
      exact surveyed.opened
    · rw [steady.transactions, steady.store]
      exact surveyed.added

instance : KeptByReading (Granting manager who) :=
  .mono fun _ _ => ofSteady

theorem knows (granting : Granting manager who before after) {entry : Entry}
    (known : before.store.Knows entry) : after.store.Knows entry :=
  Store.Granted.knows granting.granted known

end Granting

/-! ### Reading -/

/-- Behind the check of a role it is allowed. -/
theorem keepsAt_validateRole_bind {relation : Service → Service → Prop}
    [IsPreorder Service relation] {α : Type} {object : ObjectRef} {role : Role}
    {rest : Unit → Action α}
    (keeps : service.registry.allows object.objectClass role = true →
      KeepsAt relation service (rest ())) :
    KeepsAt relation service (validateRole object role >>= rest) := by
  refine ensures_bind.mpr ((ensures_validateRole object role).mono ?_
    fun _ _ ⟨_, same⟩ => same ▸ refl _)
  rintro _ _ ⟨allows, rfl⟩
  exact keeps allows

/-! ### Storing and linking -/

/-- A step of the store keeps what the manager sees, as long as that has not changed otherwise. -/
theorem Granting.ofStep (registry : after.registry = before.registry)
    (step : GrantStep before.registry who before.store after.store)
    (opened : IsOpen manager before → IsOpen manager after)
    (added : Surveyed manager before → ∀ sets, after.transactions[manager]? = some sets →
      ∀ entry ∈ sets.added.values, after.store.Knows entry) :
    Granting manager who before after where
  registry := registry
  granted := .single step
  surveyed surveyed :=
    ⟨opened surveyed.opened, step.numbered surveyed.numbered, added surveyed⟩

theorem grants_insertEntry {identity : Identity} {object : ObjectRef} {role : Role}
    (surveyed : Surveyed manager service) (granted : who identity)
    (allows : service.registry.allows object.objectClass role = true) :
    Ensures (insertEntry manager identity object role) service
      (fun entry after => Granting manager who service after ∧ after.store.Holds entry ∧
        entry.identity = identity ∧ entry.object = object ∧ entry.role = role)
      (fun _ => Granting manager who service) := by
  refine (ensures_insertEntry identity object role surveyed.opened).mono ?_
    fun _ _ reading => .ofSteady reading.2
  rintro entry after ⟨⟨sets, created⟩, result⟩
  have step : GrantStep service.registry who service.store after.store :=
    .stored granted allows result
  have holds : after.store.Holds entry :=
    (surveyed.numbered.holds_createEntry result).mpr (.inl rfl)
  refine ⟨.ofStep created.registry step (WriteStep.created created).isOpen
    fun surveyed later opened other member => ?_, holds, ?_⟩
  · rw [created.transactions, OrderedMap.lookup_insert, if_pos rfl] at opened
    obtain rfl := Option.some.inj opened
    obtain ⟨id, listed⟩ := OrderedMap.mem_values_iff.mp member
    rcases WorkingSets.lookup_added_add listed with ⟨-, rfl⟩ | earlier
    · exact (step.numbered surveyed.numbered).knows holds
    · exact step.knows
        (surveyed.added sets created.opened other (OrderedMap.mem_values_iff.mpr ⟨id, earlier⟩))
  · obtain ⟨-, rfl, -⟩ := Store.createEntry_eq_ok_iff.mp result
    exact ⟨rfl, rfl, rfl⟩

theorem grants_linkEntries {parent child : Entry} {kind : DependencyKind}
    (parentKnown : service.store.Knows parent) (childKnown : service.store.Knows child)
    (granted : who parent.identity) (same : child.identity = parent.identity)
    (propagates :
      service.registry.isPropagatable parent.object.objectClass parent.role = true) :
    KeepsAt (Granting manager who) service (linkEntries parent child kind) := by
  unfold linkEntries
  refine .bind (.ofStore (KeptByReading.storeRead _ _ service)) fun found middle granting => ?_
  split
  · refine .bind (.ofStore ?_) fun _ later _ => KeptByReading.record _ later
    refine (ensures_storeChange _ _).mono ?_ fun _ _ ⟨_, asked⟩ => asked ▸ .ofSteady ⟨rfl, rfl, rfl⟩
    rintro _ after ⟨store, result, rfl⟩
    obtain ⟨-, parentStored, childStored, -⟩ := Store.createDependency_eq_ok_iff.mp result
    have step : GrantStep middle.registry who middle.store store :=
      .linked ((granting.knows parentKnown).agrees.holds parentStored)
        ((granting.knows childKnown).agrees.holds childStored) granted same
        (granting.registry ▸ propagates) result
    exact .ofStep rfl step id fun surveyed sets opened entry member =>
      step.knows (surveyed.added sets opened entry member)
  · exact .pure

/-! ### Propagation -/

section Descent

variable {descend : Entry → Action Unit}
  (descends : ∀ (entry : Entry) (service : Service), Surveyed manager service →
    service.store.Knows entry → who entry.identity →
    KeepsAt (Granting manager who) service (descend entry))

include descends

theorem grants_grantChild {parent : Entry} {child : ObjectRef} {role : Role}
    {kind : DependencyKind} (surveyed : IsOpen manager service → Surveyed manager service)
    (known : service.store.Knows parent) (granted : who parent.identity) :
    KeepsAt (Granting manager who) service
      (grantChild descend manager parent child role kind) := by
  unfold grantChild
  refine keepsAt_requireTransaction_bind fun opened => ?_
  have surveyed := surveyed opened
  refine .get ?_
  split
  · exact .pure
  rename_i propagates
  have propagates :
      service.registry.isPropagatable parent.object.objectClass parent.role = true := by
    simpa using propagates
  have links (entry : Entry) (middle : Service) (granting : Granting manager who service middle)
      (entryKnown : middle.store.Knows entry) (same : entry.identity = parent.identity) :
      KeepsAt (Granting manager who) middle (do
        linkEntries parent entry kind
        return some entry) :=
    .bind (grants_linkEntries (granting.knows known) entryKnown granted same
      (granting.registry ▸ propagates)) fun _ _ _ => .pure
  refine keepsAt_validateRole_bind fun allows => ?_
  refine .bindKnown (ensures_getEntry surveyed.numbered parent.identity child role)
    fun found middle granting finds => ?_
  split
  · rename_i existing
    obtain ⟨seen, same, -⟩ := finds existing rfl
    rw [pure_bind]
    exact links existing middle granting (granting.knows (surveyed.knows seen)) same
  · simp only [pure_bind]
    refine .bindKnown (grants_insertEntry (granting.surveyed surveyed) granted
      (granting.registry ▸ allows)) fun entry later inserting ⟨holds, same, _⟩ => ?_
    have toLater := IsTrans.trans _ _ _ granting inserting
    have entryKnown := (toLater.surveyed surveyed).knows (.inl holds)
    refine .bind (descends entry later (toLater.surveyed surveyed) entryKnown (same ▸ granted))
      fun _ last descending => ?_
    exact links entry last (IsTrans.trans _ _ _ toLater descending)
      (descending.knows entryKnown) same

theorem grants_applyRule {entry : Entry} {rule : PropagationRule}
    (surveyed : Surveyed manager service) (known : service.store.Knows entry)
    (granted : who entry.identity) :
    KeepsAt (Granting manager who) service (applyRule descend manager entry rule) := by
  unfold applyRule
  refine .get ?_
  split
  · exact .pure
  · refine .bind (.ofStore ?_) fun children middle granting => ?_
    · exact KeptByReading.children _ _ service
    · refine .forM fun child _ later more => ?_
      have toLater := IsTrans.trans _ _ _ granting more
      exact .bind (grants_grantChild descends (fun _ => toLater.surveyed surveyed)
        (toLater.knows known) granted) fun _ _ _ => .pure

end Descent

theorem grants_propagate {depth : Nat} {entry : Entry} (surveyed : Surveyed manager service)
    (known : service.store.Knows entry) (granted : who entry.identity) :
    KeepsAt (Granting manager who) service (propagate depth manager entry) := by
  induction depth generalizing entry service with
  | zero => exact .pure
  | succ depth ih =>
    unfold propagate
    refine .get (.forM fun rule _ middle granting => ?_)
    exact grants_applyRule (fun _ _ => ih) (granting.surveyed surveyed) (granting.knows known)
      granted

theorem grants_propagateFrom {entry : Entry} (surveyed : Surveyed manager service)
    (known : service.store.Knows entry) (granted : who entry.identity) :
    KeepsAt (Granting manager who) service (propagateFrom manager entry) := by
  unfold propagateFrom
  exact .get (grants_propagate surveyed known granted)

/-! ### The calls -/

theorem grants_propagateToChild {parent : Entry} {child : ObjectRef} {role : Role}
    {kind : DependencyKind} (surveyed : IsOpen manager service → Surveyed manager service)
    (known : service.store.Knows parent) (granted : who parent.identity) :
    KeepsAt (Granting manager who) service (propagateToChild manager parent child role kind) :=
  grants_grantChild (fun _ _ => grants_propagateFrom) surveyed known granted

theorem grants_createEntry {identity : Identity} {object : ObjectRef} {role : Role}
    (surveyed : IsOpen manager service → Surveyed manager service)
    (granted : identity.isRoot = false → who identity) :
    KeepsAt (Granting manager who) service (createEntry manager identity object role) := by
  unfold createEntry
  split
  · exact .pure
  rename_i notRoot
  have granted := granted (by simpa using notRoot)
  refine keepsAt_requireTransaction_bind fun opened => ?_
  have surveyed := surveyed opened
  refine keepsAt_validateRole_bind fun allows => ?_
  refine .bindKnown (ensures_getEntry surveyed.numbered identity object role)
    fun found middle granting _ => ?_
  split
  · exact .pure
  · refine .bindKnown (grants_insertEntry (granting.surveyed surveyed) granted
      (granting.registry ▸ allows)) fun entry later inserting ⟨holds, same, _⟩ => ?_
    have surveyed := inserting.surveyed (granting.surveyed surveyed)
    exact .bind (grants_propagateFrom surveyed (surveyed.knows (.inl holds)) (same ▸ granted))
      fun _ _ _ => .pure

theorem grants_passOn {childType : ObjectType} {child : ObjectRef} {parents : List Entry}
    (surveyed : Surveyed manager service)
    (known : ∀ parent ∈ parents, service.store.Knows parent)
    (granted : ∀ parent ∈ parents, who parent.identity) :
    KeepsAt (Granting manager who) service (passOn manager childType child parents) := by
  induction parents generalizing service with
  | nil => exact .pure
  | cons parent parents ih =>
    have rest (created : Option Entry) (middle : Service)
        (granting : Granting manager who service middle) :
        KeepsAt (Granting manager who) middle (do
          return created.toList ++ (← passOn manager childType child parents)) :=
      .bind (ih (granting.surveyed surveyed)
        (fun other member => granting.knows (known other (.tail _ member)))
        fun other member => granted other (.tail _ member)) fun _ _ _ => .pure
    unfold passOn
    split
    · exact .bind (grants_propagateToChild (fun _ => surveyed) (known parent (.head _))
        (granted parent (.head _))) rest
    · exact .bind .pure rest

theorem grants_createEntriesForChild {parent child : ObjectRef}
    (surveyed : IsOpen manager service → Surveyed manager service)
    (granted : ∀ entry, Sees manager service entry → who entry.identity) :
    KeepsAt (Granting manager who) service (createEntriesForChild manager parent child) := by
  unfold createEntriesForChild
  refine keepsAt_requireTransaction_bind fun opened => ?_
  have surveyed := surveyed opened
  refine .get ?_
  split
  · exact .throw
  · refine .bindKnown (ensures_entries surveyed.numbered parent)
      fun parents middle granting seen => ?_
    exact grants_passOn (granting.surveyed surveyed)
      (fun entry member => granting.knows (surveyed.knows (seen entry member).1))
      fun entry member => granted entry (seen entry member).1

end BookingAccess.Manager
