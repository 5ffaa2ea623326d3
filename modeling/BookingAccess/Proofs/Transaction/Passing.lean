/-
**Passing grants on while nothing stands in the way.**

The grants on an object are listed before any of them is passed on, and whatever is stored meanwhile
leaves them alone. So every parent is stored when its turn comes, and no turn fails.

* `Registry.handsDown`: the entries that have a turn;
* `answered_propagateToChild`: one turn; `passes_passOn`: all of them;
* `passes_createEntriesForChild`: a call.
-/

import BookingAccess.Proofs.Transaction.Spreading

namespace BookingAccess

/-- Does the role of the entry propagate, and does the class of the child object have it? -/
def Registry.handsDown (registry : Registry) (child : ObjectRef) (parent : Entry) : Bool :=
  registry.isPropagatable parent.object.objectClass parent.role &&
    registry.allows child.objectClass parent.role

namespace Manager

open Service Store

variable {manager : ManagerId} {service : Service} {parent : Entry} {parents : List Entry}
  {child : ObjectRef} {childType : ObjectType} {role : Role} {kind : DependencyKind}

/-- A grant on a child object, for an entry whose role propagates. -/
theorem answered_propagateToChild (calm : Calm manager service)
    (propagates : service.registry.isPropagatable parent.object.objectClass parent.role = true)
    (allows : service.registry.allows child.objectClass role = true) :
    Ensures (propagateToChild manager parent child role kind) service
      (fun answer after => ∃ entry, answer = some entry ∧
        Joined manager parent ⟨child, role⟩ kind entry service after)
      (fun fault after => fault = .storage (.entryNotFound parent.id) ∧
        ∃ entry, Orphaned manager parent ⟨child, role⟩ entry service after) :=
  answered_grantChild calm propagates allows fun _ _ _ atExtended stored =>
    spreads_propagateFrom atExtended
      ((calm.intact.numbered.holds_createEntry stored).mpr (.inl rfl))

/-- **The parents have their turns** whose grants are handed down. -/
theorem passes_passOn (calm : Calm manager service)
    (found : service.registry.get? child.objectClass = some childType)
    (held : ∀ parent ∈ parents, service.store.Holds parent) :
    Ensures (passOn manager childType child parents) service
      (fun created after => Passed service.registry service.graph child
        (parents.filter (service.registry.handsDown child)) created service.store after.store)
      fun _ _ => False := by
  induction parents generalizing service with
  | nil => exact ensures_pure.mpr .nothing
  | cons parent parents ih =>
    have allows : service.registry.allows child.objectClass parent.role =
        childType.allows parent.role := by
      unfold Registry.allows
      rw [found]
      rfl
    have rest := ih calm found fun other member => held other (.tail _ member)
    unfold passOn
    rw [List.filter_cons]
    simp only [Registry.handsDown, allows]
    cases allowed : childType.allows parent.role with
    | false =>
      simp only [Bool.and_false, Bool.false_eq_true, if_false, pure_bind, ensures_bind,
        ensures_pure]
      exact rest
    | true =>
      simp only [Bool.and_true, if_true]
      cases propagates : service.registry.isPropagatable parent.object.objectClass parent.role with
      | false =>
        refine (ensures_grantChild_of_not calm.opened propagates).followed ?_
        rintro _ _ ⟨rfl, rfl⟩
        simp only [ensures_bind, ensures_pure]
        exact rest
      | true =>
        refine ensures_bind.mpr ((answered_propagateToChild calm propagates
          (allows.trans allowed)).mono ?_ ?_)
        · rintro _ later ⟨entry, rfl, joined⟩
          have same := joined.surroundings
          simp only [ensures_bind, ensures_pure]
          refine (ih joined.calm (same.registry.symm ▸ found) fun other member =>
            joined.kept calm.intact (held other (.tail _ member))).mono ?_ fun _ _ => id
          rintro created after passed
          rw [same.registry, same.graph] at passed
          obtain ⟨middle, obtained, tied⟩ := joined.obtained
          exact .next joined.sameIdentity joined.isGrant obtained.obtains tied passed
        · rintro _ later ⟨-, entry, orphaned⟩
          exact orphaned.not_holds calm.intact (held parent (.head _))

/-- **The grants on an object are passed on to a child object.** -/
theorem passes_createEntriesForChild (calm : Calm manager service) (parent : ObjectRef)
    (found : service.registry.get? child.objectClass = some childType) :
    Ensures (createEntriesForChild manager parent child) service
      (fun created after => Passed service.registry service.graph child
        ((service.store.entriesOn parent).filter (service.registry.handsDown child)) created
        service.store after.store)
      fun _ _ => False := by
  unfold createEntriesForChild
  refine (opened_requireTransaction calm.opened).followed ?_
  rintro _ service rfl
  simp only [ensures_bind, ensures_get, found]
  refine (answered_entries parent (answers_of_reachable calm.reachable _) calm.intact calm.added
    calm.removed).mono ?_ fun _ _ => id
  rintro _ middle ⟨rfl, still⟩
  rw [← still.store, ← still.registry, ← still.graph]
  exact passes_passOn (calm.still still) (still.registry.symm ▸ found) fun entry listed =>
    ((calm.still still).intact.numbered.mem_entriesOn.mp listed).1

end Manager

end BookingAccess
