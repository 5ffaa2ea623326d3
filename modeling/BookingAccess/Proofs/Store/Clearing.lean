/-
**What a deletion in turn takes.**

Several entries are deleted one after another, each detached from its parents, but for those that
have gone with an earlier one. So it is not a single least set that goes: each entry takes what goes
with it once the earlier ones are gone, and what a deletion spares is asked after anew at the next.

* `Turn`: what is gone after the turn of one entry; `turn_iff_goesWith`: what goes with it by then;
* `Clears`: what is gone after the turns of all; `Clears.lost`: whatever has gone unnamed has lost
  every parent; `Clears.spares`: what has lost every parent already does not go any more;
* `Takes.turn`: a turn takes that; `Takes.passed`: one that is gone has none;
* `Strands`: the entries that stay though they have lost their parents; `stranded_iff`: no others do.
-/

import BookingAccess.Proofs.Store.Falling
import Mathlib.Data.List.Nodup

namespace BookingAccess

theorem Manager.DeleteOutcome.hasDeleted_iff {outcome : DeleteOutcome} {id : EntryId} :
    outcome.hasDeleted id = true ↔ ∃ entry ∈ outcome.deleted, entry.id = id := by
  unfold hasDeleted
  simp only [List.any_eq_true, beq_iff_eq]

namespace Store

open Manager (DeleteOutcome)

variable {gone : EntryId → Prop} {origin middle after store : Store} {outcome below : DeleteOutcome}
  {entry child last : Entry} {entries earlier later : List Entry} {dependency : Dependency}
  {id : EntryId}

/-- **What is gone after the turn of an entry**, given what was gone before. Of its own children the
entry spares those that can be detached. -/
def Turn (store : Store) (gone : EntryId → Prop) (entry : Entry) : EntryId → Prop :=
  Falls store (fun id => gone id ∨ id = entry.id) (fun _ => False)
    fun dependency => gone dependency.parent ∨ Spares entry true dependency

/-- **What is gone after the turns of these entries.** -/
def Clears (store : Store) (gone : EntryId → Prop) (entries : List Entry) : EntryId → Prop :=
  entries.foldl store.Turn gone

/-! ### The turn of an entry -/

theorem turn_of_gone (isGone : gone id) : store.Turn gone entry id := .aimed (.inl isGone)

theorem turn_self : store.Turn gone entry entry.id := .aimed (.inr rfl)

/-- What has gone in the turn of another entry had a parent until then, and it was not spared. -/
theorem turn_cases (turn : store.Turn gone entry id) :
    gone id ∨ id = entry.id ∨
      (∃ dependency ∈ store.dependencies, dependency.child = id ∧
        ¬ (gone dependency.parent ∨ Spares entry true dependency)) ∧
      ∀ dependency ∈ store.dependencies, dependency.child = id →
        store.Turn gone entry dependency.parent := by
  cases turn with
  | aimed isAimed => exact isAimed.imp_right .inl
  | orphaned followed lost =>
    exact .inr (.inr ⟨followed, fun other member isChild => lost other member isChild not_false⟩)

/-- An entry that is gone takes nothing more. -/
theorem turn_eq_of_gone (isGone : gone entry.id) : store.Turn gone entry = gone := by
  refine funext fun id => propext ⟨fun turn => ?_, turn_of_gone⟩
  induction turn with
  | aimed isAimed => exact isAimed.elim (fun earlier => earlier) fun same => same ▸ isGone
  | orphaned followed _ ih =>
    obtain ⟨dependency, member, isChild, unspared⟩ := followed
    exact absurd (.inl (ih dependency member isChild not_false)) unspared

/-! ### What is taken -/

/-- Nothing happens and nothing is taken. -/
theorem Takes.nothing (store : Store) :
    Takes (fun _ => False) (fun _ => False) store .empty store where
  gone _ never := never.elim
  kept _ _ := rfl
  dependencies := (List.filter_eq_self.mpr fun _ _ => by simp).symm
  reported _ := ⟨fun never => (nomatch never), fun taken => taken.2.elim⟩
  once := .nil

namespace Takes

/-- What is still there is what was there before. -/
theorem holds_iff (takes : Takes gone (fun _ => False) origin outcome after) :
    after.Holds entry ↔ origin.Holds entry ∧ ¬ gone entry.id := by
  unfold Holds
  by_cases isGone : gone entry.id
  · rw [takes.gone _ isGone]
    exact ⟨fun never => (nomatch never), fun kept => absurd isGone kept.2⟩
  · rw [takes.kept _ isGone]
    exact ⟨fun found => ⟨found, isGone⟩, And.left⟩

theorem mem_dependencies (takes : Takes gone (fun _ => False) origin outcome after) :
    dependency ∈ after.dependencies ↔
      dependency ∈ origin.dependencies ∧ ¬ gone dependency.parent ∧ ¬ gone dependency.child := by
  simp only [takes.dependencies, List.mem_filter, decide_eq_true_eq, not_false_eq_true, true_and]

/-- What is reported has left the store. -/
theorem mem_deleted_iff (takes : Takes gone (fun _ => False) origin outcome after) :
    entry ∈ outcome.deleted ↔ origin.Holds entry ∧ ¬ after.Holds entry := by
  rw [takes.reported, takes.holds_iff]
  exact ⟨fun ⟨holds, isGone⟩ => ⟨holds, fun kept => kept.2 isGone⟩,
    fun ⟨holds, lost⟩ => ⟨holds, Classical.byContradiction fun kept => lost ⟨holds, kept⟩⟩⟩

/-- A number that was in use is reported exactly if what was stored under it is gone. -/
theorem hasDeleted_iff (takes : Takes gone (fun _ => False) origin outcome after)
    (numbered : origin.Numbered) (stored : (origin.get? id).isSome = true) :
    outcome.hasDeleted id = true ↔ gone id := by
  rw [DeleteOutcome.hasDeleted_iff]
  constructor
  · rintro ⟨entry, listed, rfl⟩
    exact ((takes.reported entry).mp listed).2
  · intro isGone
    obtain ⟨entry, found⟩ := Option.isSome_iff_exists.mp stored
    obtain rfl := (numbered id entry found).1
    exact ⟨entry, (takes.reported entry).mpr ⟨found, isGone⟩, rfl⟩

/-- What is reported tells which entries are left. -/
theorem get?_eq (takes : Takes gone (fun _ => False) origin outcome after)
    (numbered : origin.Numbered) :
    after.get? id = if outcome.hasDeleted id then none else origin.get? id := by
  by_cases stored : (origin.get? id).isSome = true
  · split
    · rename_i reported
      exact takes.gone id ((takes.hasDeleted_iff numbered stored).mp reported)
    · rename_i unreported
      exact takes.kept id (mt (takes.hasDeleted_iff numbered stored).mpr unreported)
  · have free := Option.not_isSome_iff_eq_none.mp stored
    rw [free, ite_self]
    by_cases isGone : gone id
    · exact takes.gone id isGone
    · exact (takes.kept id isGone).trans free

/-- What is reported tells which dependencies are left. -/
theorem dependencies_eq (takes : Takes gone (fun _ => False) origin outcome after)
    (numbered : origin.Numbered) (anchored : origin.Anchored) :
    after.dependencies = origin.dependencies.filter fun dependency =>
      !(outcome.hasDeleted dependency.parent || outcome.hasDeleted dependency.child) := by
  rw [takes.dependencies]
  refine List.filter_congr fun dependency member => ?_
  obtain ⟨parentStored, childStored⟩ := anchored dependency member
  simp only [← takes.hasDeleted_iff numbered parentStored,
    ← takes.hasDeleted_iff numbered childStored]
  cases outcome.hasDeleted dependency.parent <;>
    cases outcome.hasDeleted dependency.child <;> simp

/-- First these are taken, then others. -/
theorem trans {more : EntryId → Prop} (first : Takes gone (fun _ => False) origin outcome middle)
    (second : Takes more (fun _ => False) middle below after) :
    Takes (fun id => gone id ∨ more id) (fun _ => False) origin (outcome.append below) after where
  gone id isGone := by
    by_cases isMore : more id
    · exact second.gone id isMore
    · rw [second.kept id isMore, first.gone id (isGone.resolve_right isMore)]
  kept id isKept := by
    obtain ⟨early, late⟩ := not_or.mp isKept
    rw [second.kept id late, first.kept id early]
  dependencies := by
    classical
    rw [second.dependencies, first.dependencies, List.filter_filter]
    refine List.filter_congr fun dependency _ => ?_
    rw [← Bool.decide_and, decide_eq_decide]
    grind
  reported entry := by
    show entry ∈ outcome.deleted ++ below.deleted ↔ _
    rw [List.mem_append, first.reported, second.reported, first.holds_iff]
    grind
  once := by
    refine List.nodup_append.mpr ⟨first.once, second.once, ?_⟩
    rintro entry early _ late rfl
    exact (first.holds_iff.mp ((second.reported entry).mp late).1).2
      ((first.reported entry).mp early).2

end Takes

/-- **What goes in the turn of an entry** goes with it in the store that the earlier turns left. -/
theorem turn_iff_goesWith (takes : Takes gone (fun _ => False) origin outcome middle) :
    origin.Turn gone entry id ↔ gone id ∨ middle.GoesWith entry true id := by
  constructor
  · intro turn
    induction turn with
    | aimed isAimed => exact isAimed.imp_right .aimed
    | @orphaned id followed _ ih =>
      by_cases isGone : gone id
      · exact .inl isGone
      obtain ⟨dependency, member, rfl, unspared⟩ := followed
      obtain ⟨parentKept, unspared⟩ := not_or.mp unspared
      refine .inr (.orphaned ⟨dependency, takes.mem_dependencies.mpr ⟨member, parentKept, isGone⟩,
        rfl, unspared⟩ fun other kept sameChild _ => ?_)
      obtain ⟨earlier, otherKept, -⟩ := takes.mem_dependencies.mp kept
      exact (ih other earlier sameChild not_false).resolve_left otherKept
  · rintro (isGone | goes)
    · exact turn_of_gone isGone
    · induction goes with
      | aimed isAimed => exact .aimed (.inr isAimed)
      | orphaned followed _ ih =>
        obtain ⟨dependency, kept, rfl, unspared⟩ := followed
        obtain ⟨member, parentKept, childKept⟩ := takes.mem_dependencies.mp kept
        refine .orphaned ⟨dependency, member, rfl, not_or.mpr ⟨parentKept, unspared⟩⟩
          fun other earlier sameChild _ => ?_
        by_cases isGone : gone other.parent
        · exact turn_of_gone isGone
        · exact ih other (takes.mem_dependencies.mpr ⟨earlier, isGone, sameChild ▸ childKept⟩)
            sameChild not_false

/-- **The turn of an entry**, which is deleted in the store that the earlier turns left. -/
theorem Takes.turn (takes : Takes gone (fun _ => False) origin outcome middle)
    (fells : Fells entry true middle below after) (anchored : middle.Anchored)
    (numbered : middle.Numbered) :
    Takes (origin.Turn gone entry) (fun _ => False) origin (outcome.append below) after := by
  have same : origin.Turn gone entry = fun id => gone id ∨ middle.GoesWith entry true id :=
    funext fun id => propext (turn_iff_goesWith takes)
  rw [same]
  exact takes.trans (fells.takes anchored numbered)

/-- An entry that is gone by its turn is passed over. -/
theorem Takes.passed (takes : Takes gone (fun _ => False) origin outcome after)
    (isGone : gone entry.id) :
    Takes (origin.Turn gone entry) (fun _ => False) origin outcome after := by
  rwa [turn_eq_of_gone isGone]

/-! ### One turn after another -/

theorem clears_cons : store.Clears gone (entry :: entries) =
    store.Clears (store.Turn gone entry) entries := rfl

theorem clears_append : store.Clears gone (earlier ++ later) =
    store.Clears (store.Clears gone earlier) later := List.foldl_append

namespace Clears

theorem of_gone (isGone : gone id) : store.Clears gone entries id := by
  induction entries generalizing gone with
  | nil => exact isGone
  | cons entry entries ih => exact ih (turn_of_gone isGone)

/-- All that are named are gone. -/
theorem of_mem (named : entry ∈ entries) : store.Clears gone entries entry.id := by
  induction entries generalizing gone with
  | nil => exact nomatch named
  | cons first entries ih =>
    rw [clears_cons]
    rcases List.mem_cons.mp named with rfl | named
    · exact of_gone turn_self
    · exact ih named

/-- **Whatever has gone unnamed has lost every parent.** -/
theorem lost (clears : store.Clears gone entries id) (unnamed : ∀ entry ∈ entries, entry.id ≠ id)
    (kept : ¬ gone id) : ∀ dependency ∈ store.dependencies, dependency.child = id →
      store.Clears gone entries dependency.parent := by
  induction entries generalizing gone with
  | nil => exact absurd clears kept
  | cons first entries ih =>
    rw [clears_cons] at clears ⊢
    by_cases turn : store.Turn gone first id
    · rcases turn_cases turn with isGone | same | ⟨-, lost⟩
      · exact absurd isGone kept
      · exact absurd same.symm (unnamed first (.head _))
      · exact fun dependency member isChild => of_gone (lost dependency member isChild)
    · exact ih clears (fun entry named => unnamed entry (.tail _ named)) turn

/-- **What has lost every parent does not go any more**, unless it is named. -/
theorem spares (unnamed : ∀ entry ∈ entries, entry.id ≠ id) (kept : ¬ gone id)
    (lost : ∀ dependency ∈ store.dependencies, dependency.child = id → gone dependency.parent) :
    ¬ store.Clears gone entries id := by
  induction entries generalizing gone with
  | nil => exact kept
  | cons first entries ih =>
    refine ih (fun entry named => unnamed entry (.tail _ named)) (fun turn => ?_)
      fun dependency member isChild => turn_of_gone (lost dependency member isChild)
    rcases turn_cases turn with isGone | same | ⟨⟨dependency, member, isChild, unspared⟩, -⟩
    · exact kept isGone
    · exact unnamed first (.head _) same.symm
    · exact unspared (.inl (lost dependency member isChild))

/-- There is a turn in which an entry loses the last of its parents, if it loses them all. -/
theorem exists_turn (held : ∃ dependency ∈ store.dependencies, dependency.child = id ∧
      ¬ gone dependency.parent)
    (lost : ∀ dependency ∈ store.dependencies, dependency.child = id →
      store.Clears gone entries dependency.parent) :
    ∃ earlier last later, entries = earlier ++ last :: later ∧
      (∃ dependency ∈ store.dependencies, dependency.child = id ∧
        ¬ store.Clears gone earlier dependency.parent) ∧
      ∀ dependency ∈ store.dependencies, dependency.child = id →
        store.Turn (store.Clears gone earlier) last dependency.parent := by
  induction entries generalizing gone with
  | nil =>
    obtain ⟨dependency, member, isChild, kept⟩ := held
    exact absurd (lost dependency member isChild) kept
  | cons first entries ih =>
    by_cases left : ∃ dependency ∈ store.dependencies, dependency.child = id ∧
        ¬ store.Turn gone first dependency.parent
    · obtain ⟨earlier, last, later, rfl, found⟩ := ih left lost
      exact ⟨first :: earlier, last, later, rfl, found⟩
    · refine ⟨[], first, entries, rfl, held, fun dependency member isChild => ?_⟩
      exact Classical.byContradiction fun kept => left ⟨dependency, member, isChild, kept⟩

end Clears

/-! ### What is left without a parent -/

/-- **An entry is stranded** by the deletion of these in turn: in one of the turns the last of its
parents goes, and the entry that is deleted then is itself a parent of it and spares it. -/
def Strands (store : Store) (entries : List Entry) (id : EntryId) : Prop :=
  ∃ earlier last later, entries = earlier ++ last :: later ∧
    ¬ store.Clears (fun _ => False) earlier last.id ∧
    ⟨last.id, id, .detach⟩ ∈ store.dependencies ∧
    ∀ dependency ∈ store.dependencies, dependency.child = id →
      dependency.parent = last.id ∨ store.Clears (fun _ => False) earlier dependency.parent

/-- An entry that stays and has lost its parents is stranded. -/
theorem Strands.of_kept (kept : ¬ store.Clears (fun _ => False) entries id)
    (hadParent : store.HasParent id)
    (lost : ∀ dependency ∈ store.dependencies, dependency.child = id →
      store.Clears (fun _ => False) entries dependency.parent) : store.Strands entries id := by
  obtain ⟨held, member, isChild⟩ := hadParent
  obtain ⟨earlier, last, later, rfl, ⟨dependency, member, isChild, parentKept⟩, lost⟩ :=
    Clears.exists_turn ⟨held, member, isChild, not_false⟩ lost
  rw [clears_append, clears_cons] at kept
  have stays : ¬ store.Turn (store.Clears (fun _ => False) earlier) last id :=
    mt Clears.of_gone kept
  -- It was not come to in this turn, so each parent had gone earlier or its child was spared.
  have passedOver (other : Dependency) (member : other ∈ store.dependencies)
      (isChild : other.child = id) : store.Clears (fun _ => False) earlier other.parent ∨
        Spares last true other :=
    Classical.byContradiction fun followed => stays (.orphaned ⟨other, member, isChild, followed⟩
      fun other member isChild _ => lost other member isChild)
  obtain ⟨isParent, detaches, -⟩ := (passedOver dependency member isChild).resolve_left parentKept
  refine ⟨earlier, last, later, rfl, isParent ▸ parentKept, ?_, fun other member isChild => ?_⟩
  · rw [← isParent, ← isChild, ← detaches]
    exact member
  · exact (passedOver other member isChild).symm.imp_left And.left

/-- A stranded entry stays, unless it is named, and has lost its parents. -/
theorem Strands.kept (strands : store.Strands entries id) (intact : store.Intact)
    (unnamed : ∀ entry ∈ entries, entry.id ≠ id) :
    ¬ store.Clears (fun _ => False) entries id ∧ store.HasParent id ∧
      ∀ dependency ∈ store.dependencies, dependency.child = id →
        store.Clears (fun _ => False) entries dependency.parent := by
  obtain ⟨earlier, last, later, rfl, lastKept, detaches, parents⟩ := strands
  have inTurn (dependency : Dependency) (member : dependency ∈ store.dependencies)
      (isChild : dependency.child = id) :
      store.Turn (store.Clears (fun _ => False) earlier) last dependency.parent :=
    (parents dependency member isChild).elim (fun isLast => isLast ▸ turn_self) turn_of_gone
  have namedEarlier : ∀ entry ∈ earlier, entry.id ≠ id := fun entry named =>
    unnamed entry (List.mem_append_left _ named)
  have kept : ¬ store.Turn (store.Clears (fun _ => False) earlier) last id := by
    intro turn
    rcases turn_cases turn with isGone | same | ⟨⟨dependency, member, isChild, unspared⟩, -⟩
    · exact lastKept (isGone.lost namedEarlier not_false _ detaches rfl)
    · exact unnamed last (List.mem_append_right _ (.head _)) same.symm
    · obtain ⟨parentKept, unspared⟩ := not_or.mp unspared
      have isLast := (parents dependency member isChild).resolve_right parentKept
      -- Between two entries there is no other dependency.
      have same : dependency = ⟨last.id, id, .detach⟩ :=
        List.inj_on_of_nodup_map intact.linkedOnce member detaches (by simp [isLast, isChild])
      exact unspared ⟨isLast, by rw [same], rfl⟩
  rw [clears_append, clears_cons]
  refine ⟨Clears.spares (fun entry named => ?_) kept inTurn, ⟨_, detaches, rfl⟩,
    fun dependency member isChild => Clears.of_gone (inTurn dependency member isChild)⟩
  exact unnamed entry (List.mem_append_right _ (.tail _ named))

/-- **Exactly the stranded entries are left without a parent** of those that had one and are not
named. -/
theorem Takes.stranded_iff
    (takes : Takes (origin.Clears (fun _ => False) entries) (fun _ => False) origin outcome after)
    (intact : origin.Intact) (unnamed : ∀ entry ∈ entries, entry.id ≠ child.id)
    (holds : origin.Holds child) :
    after.Holds child ∧ origin.HasParent child.id ∧ ¬ after.HasParent child.id ↔
      origin.Strands entries child.id := by
  rw [takes.holds_iff]
  constructor
  · rintro ⟨⟨-, kept⟩, hadParent, orphan⟩
    refine .of_kept kept hadParent fun dependency member isChild => ?_
    refine Classical.byContradiction fun parentKept => orphan ⟨dependency, ?_, isChild⟩
    exact takes.mem_dependencies.mpr ⟨member, parentKept, isChild ▸ kept⟩
  · intro strands
    obtain ⟨kept, hadParent, lost⟩ := strands.kept intact unnamed
    refine ⟨⟨holds, kept⟩, hadParent, ?_⟩
    rintro ⟨dependency, left, isChild⟩
    obtain ⟨member, parentKept, -⟩ := takes.mem_dependencies.mp left
    exact parentKept (lost dependency member isChild)

end Store

end BookingAccess
