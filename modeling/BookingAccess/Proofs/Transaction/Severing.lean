/-
**Detaching while nothing stands in the way.**

The dependencies into the child object are listed before any of them is cut, and by the time that
one is looked at it may be gone with its parent or its child. The manager may still find the parent
then, since the cache remembers it. But whatever it finds is what was stored when the call began,
and what it does not find is stored no longer. So no dependency is cut that should stay, and the
only ones passed over are gone already.

* `Underway`: the state in the course of the call; `Underway.entry`: what the manager finds then;
* `parts_deleteAttachment`: one dependency is cut; `Underway.deleteAttachment`: the call goes on;
* `severs_deleteAttachments`: they are gone through in turn.
-/

import BookingAccess.Proofs.Cache.Mindful
import BookingAccess.Proofs.Store.Severing
import BookingAccess.Proofs.Transaction.Alone
import BookingAccess.Proofs.Transaction.Felling

namespace BookingAccess.Manager

open Service Store

variable {manager : ManagerId} {origin service after : Service} {dependency : Dependency}
  {dependencies : List Dependency} {cut : Dependency → Prop} {id : EntryId}

/-- In the course of a call that deletes, nothing stands in the way of the manager, the cache is as
it was when the call began, and nothing is stored that was not stored then. -/
structure Underway (manager : ManagerId) (origin service : Service) : Prop where
  calm : Calm manager service
  cache : service.cache = origin.cache
  within : ∀ {id entry}, service.store.get? id = some entry → origin.store.get? id = some entry

namespace Underway

theorem start (calm : Calm manager service) : Underway manager service service :=
  ⟨calm, rfl, id⟩

theorem still (underway : Underway manager origin service) (still : Still service after) :
    Underway manager origin after :=
  ⟨underway.calm.still still, still.cache.trans underway.cache, still.store ▸ underway.within⟩

/-- **What the manager finds** is what was stored under the number, and what it does not find is not
stored any more. -/
theorem entry (underway : Underway manager origin service) (mindful : Mindful origin) :
    Ensures (entry manager id) service
      (fun found after => Still service after ∧
        (found = none → service.store.get? id = none) ∧
        ∀ holder stored, found = some holder → origin.store.get? id = some stored →
          stored = holder)
      (fun _ _ => False) := by
  have given {entry : Entry} (stored : service.store.get? id = some entry) (holder kept : Entry)
      (found : some entry = some holder) (earlier : origin.store.get? id = some kept) :
      kept = holder :=
    Option.some.inj (earlier.symm.trans ((underway.within stored).trans found))
  obtain ⟨sets, opened⟩ := Option.isSome_iff_exists.mp underway.calm.opened
  unfold Manager.entry currentSets
  simp only [ensures_bind, ensures_get, ensures_pure, opened, Option.getD_some]
  split
  · rename_i entry added
    exact ensures_pure.mpr ⟨refl _, fun absent => absurd absent (Option.some_ne_none entry),
      given (underway.calm.added sets opened id entry added)⟩
  split
  · rename_i removed
    obtain ⟨entry, removed⟩ := Option.isSome_iff_exists.mp
      (Std.ExtTreeMap.contains_eq_isSome_getElem?.symm.trans removed)
    exact ensures_pure.mpr ⟨refl _, fun _ => underway.calm.removed sets opened id entry removed,
      fun holder _ found => absurd found.symm (Option.some_ne_none holder)⟩
  simp only [ensures_bind, ensures_get]
  split
  · rename_i entry cached
    -- It may be stored no longer, but then the number was not given to another entry either.
    have listed : origin.Lists id entry := .inl (underway.cache ▸ cached)
    refine ensures_pure.mpr ⟨refl _, fun absent => absurd absent (Option.some_ne_none entry),
      fun holder stored found earlier => ?_⟩
    obtain rfl := Option.some.inj found
    exact (mindful.known listed).agrees stored (mindful.own listed ▸ earlier)
  · refine (reachable_read underway.calm.reachable).mono ?_ fun _ _ => False.elim
    rintro found _ ⟨rfl, still⟩
    refine ⟨still, fun absent => absent, fun holder stored found earlier => ?_⟩
    exact Option.some.inj (earlier.symm.trans (underway.within found))

end Underway

/-! ### One dependency -/

/-- **A dependency is cut**, and its child goes if it has no parent left. -/
theorem parts_deleteAttachment (free : Unhindered manager service) :
    Ensures (deleteAttachment manager dependency) service
      (fun outcome after => Unhindered manager after ∧
        Parts service.store dependency outcome after.store)
      (fun _ _ => False) := by
  unfold deleteAttachment
  refine (unhindered_deleteDependency free).followed ?_
  rintro _ severed ⟨isCut, atSevered⟩
  have isSevered : severed.store = service.store.sever dependency := isCut
  have parts {after : Store} (upheld : severed.store.Upheld dependency.child)
      (same : after = severed.store) : Parts service.store dependency .empty after := by
    rw [same, isSevered]
    exact .upheld (isSevered ▸ upheld)
  refine (reachable_read atSevered.reachable).followed ?_
  rintro parents middle ⟨rfl, still⟩
  have atMiddle := atSevered.still still
  split
  · rename_i held
    exact ensures_pure.mpr ⟨atMiddle, parts (.inr (hasParent_iff.mp held)) still.store⟩
  rename_i alone
  have orphan : ¬ severed.store.HasParent dependency.child := mt hasParent_iff.mpr alone
  refine (reachable_read atMiddle.reachable).followed ?_
  rintro found last ⟨isFound, stillLast⟩
  have atLast := atMiddle.still stillLast
  have same : last.store = severed.store := stillLast.store.trans still.store
  rw [still.store] at isFound
  split
  · exact ensures_pure.mpr ⟨atLast, parts (.inl isFound.symm) same⟩
  · rename_i child
    have isChild : dependency.child = child.id :=
      (atSevered.numbered _ _ isFound.symm).1.symm
    have holds := atSevered.numbered.holds isFound.symm
    refine (fells_deleteFrom atLast (same ▸ holds)).mono ?_ ?_
    · rintro outcome after ⟨atAfter, fells, -⟩
      rw [same, isSevered] at fells
      exact ⟨atAfter, .felled isChild (isSevered ▸ isChild ▸ orphan) fells⟩
    · rintro fault after ⟨-, referenced⟩
      exact orphan (isChild ▸ same ▸ referenced.held)

/-- After that the call goes on. -/
theorem Underway.deleteAttachment (underway : Underway manager origin service) :
    Ensures (deleteAttachment manager dependency) service
      (fun outcome after => Underway manager origin after ∧
        Parts service.store dependency outcome after.store)
      (fun _ _ => False) := by
  have calm := underway.calm
  have keeps {relation : Service → Service → Prop} [KeptByCalling relation]
      [KeptByManaging manager relation] :
      KeepsAt relation service (Manager.deleteAttachment manager dependency) :=
    manages_deleteAttachment dependency service
  have same : KeepsAt SameSurroundings service _ := keeps
  refine ((calm.keeps keeps keeps (parts_deleteAttachment calm.unhindered)).and same).mono ?_
    fun _ _ failed => failed.1
  rintro outcome after ⟨⟨calmAfter, parts⟩, same⟩
  refine ⟨⟨calmAfter, same.cache.trans underway.cache, fun found => underway.within ?_⟩, parts⟩
  exact (parts.severed calm.intact.anchored).within found

/-! ### One after another -/

/-- **The dependencies are gone through in turn**, and those are cut whose parent was on the parent
object when the call began. -/
theorem severs_deleteAttachments {parent : ObjectRef} (mindful : Mindful origin)
    (cuts : ∀ dependency ∈ dependencies, ∃ holder,
      origin.store.get? dependency.parent = some holder ∧ (cut dependency ↔ holder.object = parent))
    (underway : Underway manager origin service) :
    Ensures (deleteAttachments manager parent dependencies) service
      (fun outcome after => Severs cut service.store dependencies outcome after.store)
      (fun _ _ => False) := by
  induction dependencies generalizing service with
  | nil => exact ensures_pure.mpr (.done _)
  | cons dependency rest ih =>
    obtain ⟨stored, earlier, isCut_iff⟩ := cuts dependency (.head _)
    have passes {middle : Service} (atMiddle : Underway manager origin middle)
        (uncut : cut dependency → middle.store.get? dependency.parent = none) :
        Ensures (deleteAttachments manager parent rest) middle
          (fun outcome after =>
            Severs cut middle.store (dependency :: rest) outcome after.store)
          (fun _ _ => False) :=
      (ih (fun other member => cuts other (.tail _ member)) atMiddle).mono
        (fun _ _ => .passed uncut) fun _ _ => False.elim
    unfold deleteAttachments
    refine (underway.entry mindful).followed ?_
    rintro found middle ⟨still, absent, given⟩
    have atMiddle := underway.still still
    rw [← still.store] at absent ⊢
    split
    · simp only [pure_bind, ensures_bind, ensures_pure]
      exact passes atMiddle fun _ => absent rfl
    · rename_i holder
      obtain rfl := given holder stored rfl earlier
      split
      · rename_i onParent
        simp only [ensures_bind, ensures_pure]
        refine atMiddle.deleteAttachment.mono ?_ fun _ _ => False.elim
        rintro below later ⟨atLater, parts⟩
        refine (ih (fun other member => cuts other (.tail _ member)) atLater).mono ?_
          fun _ _ => False.elim
        exact fun _ _ => .parted (isCut_iff.mpr (beq_iff_eq.mp onParent)) parts
      · rename_i elsewhere
        simp only [pure_bind, ensures_bind, ensures_pure]
        exact passes atMiddle fun isCut =>
          absurd (beq_iff_eq.mpr (isCut_iff.mp isCut)) elsewhere

end BookingAccess.Manager
