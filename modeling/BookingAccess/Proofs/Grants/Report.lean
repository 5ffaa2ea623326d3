/-
**What the deletion of an entry reports as retained.**

A child is reported as retained each time that another parent holds it. That parent may be deleted
next: then the child is reported once more, or deleted after all. This comes about exactly where an
entry has two parents that are both deleted, and the dependencies are stored in an order that makes
the deletion come to it between the two.

* `Faithful`: the report names as retained what was kept, and once;
* `Unshared`: no entry has two parents that go; `Fells.faithful`, `Fells.not_faithful`: what follows
  from that and what from the contrary;
* `faithful_iff_unshared`: the report is faithful in every order exactly if nothing is shared.
-/

import BookingAccess.Proofs.Grants.Deletion
import BookingAccess.Proofs.Store.Tallying
import Mathlib.Data.List.Nodup

namespace BookingAccess

open Service Manager Store

variable {manager : ManagerId} {service after : Service} {entry other : Entry} {detach : Bool}
  {before left : Store} {outcome : DeleteOutcome} {first second : Dependency}

/-- What is reported as retained was not deleted, is reported once, and some parent holds it. -/
structure Manager.DeleteOutcome.Faithful (outcome : DeleteOutcome) (left : Store) : Prop where
  apart : ∀ entry ∈ outcome.retained, entry ∉ outcome.deleted
  once : outcome.retained.Nodup
  held : ∀ entry ∈ outcome.retained, left.Holds entry ∧ left.HasParent entry.id

namespace Store

/-- No other entry depends on two entries that go with the deleted one, unless the dependencies are
spared. -/
def Unshared (store : Store) (entry : Entry) (detach : Bool) : Prop :=
  ∀ first ∈ store.dependencies, ∀ second ∈ store.dependencies,
    first.child = second.child → first.child ≠ entry.id →
    store.GoesWith entry detach first.parent → store.GoesWith entry detach second.parent →
    ¬ Spares entry detach first → ¬ Spares entry detach second → first = second

/-- Entries that are told apart by their numbers are listed once if no number is. -/
theorem nodup_iff_mentions_le_one {entries : List Entry}
    (same : ∀ first ∈ entries, ∀ second ∈ entries, first.id = second.id → first = second) :
    entries.Nodup ↔ ∀ id, mentions entries id ≤ 1 := by
  have numbers : entries.Nodup ↔ (entries.map (·.id)).Nodup :=
    ⟨List.Nodup.map_on fun first inFirst second inSecond => same first inFirst second inSecond,
      List.Nodup.of_map _⟩
  rw [numbers, List.nodup_iff_count_le_one]
  refine forall_congr' fun id => ?_
  rw [List.count, List.countP_map]
  rfl

theorem mentions_pos {entries : List Entry} (listed : other ∈ entries) :
    0 < mentions entries other.id :=
  List.countP_pos_iff.mpr ⟨other, listed, beq_self_eq_true _⟩

/-- The dependencies of an entry can be put first. -/
theorem exists_foremost (id : EntryId) (dependencies : List Dependency) :
    ∃ reordered : List Dependency, reordered.Perm dependencies ∧ Foremost id reordered := by
  refine ⟨_, List.filter_append_perm (·.child == id) dependencies, ?_⟩
  refine List.pairwise_append.mpr ⟨?_, ?_, fun earlier isFirst _ _ _ => ?_⟩
  · refine List.pairwise_iff_forall_sublist.mpr fun within _ => ?_
    exact beq_iff_eq.mp (List.mem_filter.mp (within.subset (.head _))).2
  · refine List.pairwise_iff_forall_sublist.mpr fun within isChild => ?_
    have other := (List.mem_filter.mp (within.subset (.tail _ (.head _)))).2
    simp [isChild] at other
  · exact beq_iff_eq.mp (List.mem_filter.mp isFirst).2

namespace Fells

/-- Entries that are retained are told apart by their numbers. -/
theorem same_retained (fells : Fells entry detach before outcome left)
    (anchored : before.Anchored) : ∀ first ∈ outcome.retained, ∀ second ∈ outcome.retained,
      first.id = second.id → first = second :=
  fun _ inFirst _ inSecond =>
    (fells.retained anchored inFirst).1.eq_of_id (fells.retained anchored inSecond).1

/-- **Whatever is retained** is deleted in the end, or some parent holds it. -/
theorem retained_or_deleted (fells : Fells entry detach before outcome left)
    (anchored : before.Anchored) (listed : other ∈ outcome.retained) :
    other ∈ outcome.deleted ∨ left.Holds other ∧ left.HasParent other.id := by
  obtain ⟨held, -, free | parented⟩ := fells.retained anchored listed
  · exact .inl ((fells.mem_deleted_iff anchored).mpr ⟨held, free⟩)
  · cases found : left.get? other.id with
    | none => exact .inl ((fells.mem_deleted_iff anchored).mpr ⟨held, found⟩)
    | some kept =>
      exact .inr ⟨(fells.pruned anchored).1.holds held (by rw [found]; rfl), parented⟩

/-- Where nothing is shared, the deletion comes to no entry twice. -/
theorem causes_le_one (fells : Fells entry detach before outcome left)
    (anchored : before.Anchored) (once : before.dependencies.Nodup)
    (unshared : before.Unshared entry detach) {id : EntryId} (different : id ≠ entry.id) :
    (before.causes entry detach outcome.deleted id).length ≤ 1 := by
  have goes {dependency : Dependency}
      (parent : ∃ parent ∈ outcome.deleted, parent.id = dependency.parent) :
      before.GoesWith entry detach dependency.parent := by
    obtain ⟨parent, listed, same⟩ := parent
    obtain ⟨held, free⟩ := (fells.mem_deleted_iff anchored).mp listed
    exact same ▸ (fells.gone_iff anchored held).mp free
  have nodup : (before.causes entry detach outcome.deleted id).Nodup := (once.filter _).filter _
  have alike : ∀ first ∈ before.causes entry detach outcome.deleted id,
      ∀ second ∈ before.causes entry detach outcome.deleted id, first = second := by
    intro first inFirst second inSecond
    obtain ⟨member, isChild, parent, follows⟩ := mem_causes.mp inFirst
    obtain ⟨memberToo, isChildToo, parentToo, followsToo⟩ := mem_causes.mp inSecond
    exact unshared first member second memberToo (isChild.trans isChildToo.symm)
      (isChild ▸ different) (goes parent) (goes parentToo) follows followsToo
  match causes : before.causes entry detach outcome.deleted id with
  | [] | [_] => simp
  | first :: second :: _ =>
    rw [causes] at nodup alike
    have same := alike first (.head _) second (.tail _ (.head _))
    exact absurd same (List.rel_of_pairwise_cons nodup (.head _))

/-- **Where nothing is shared, the report is faithful.** -/
theorem faithful (fells : Fells entry detach before outcome left) (anchored : before.Anchored)
    (once : before.dependencies.Nodup) (unshared : before.Unshared entry detach) :
    outcome.Faithful left := by
  have most {id : EntryId} (different : id ≠ entry.id) :
      mentions outcome.retained id + mentions outcome.deleted id ≤ 1 :=
    Nat.le_trans (fells.tally anchored different).1
      (fells.causes_le_one anchored once unshared different)
  have notRoot {other : Entry} (listed : other ∈ outcome.retained) : other.id ≠ entry.id := by
    obtain ⟨held, different, -⟩ := fells.retained anchored listed
    obtain ⟨holds, -, -⟩ := fells
    exact fun same => different (held.eq_of_id holds same)
  have apart : ∀ other ∈ outcome.retained, other ∉ outcome.deleted := by
    intro other listed listedToo
    have kept := mentions_pos listed
    have gone := mentions_pos listedToo
    have both := most (notRoot listed)
    omega
  refine ⟨apart, (nodup_iff_mentions_le_one (fells.same_retained anchored)).mpr fun id => ?_,
    fun other listed => (fells.retained_or_deleted anchored listed).resolve_left
      (apart other listed)⟩
  by_cases mentioned : 0 < mentions outcome.retained id
  · obtain ⟨other, listed, same⟩ := List.countP_pos_iff.mp mentioned
    obtain rfl := beq_iff_eq.mp same
    have both := most (notRoot listed)
    omega
  · omega

/-- **Where an entry is shared, the report is not faithful** if its dependencies are followed
first. -/
theorem not_faithful (fells : Fells entry detach before outcome left) (anchored : before.Anchored)
    (numbered : before.Numbered) (foremost : Foremost other.id before.dependencies)
    (different : other.id ≠ entry.id) (shared : Shared before other first second)
    (firstGoes : before.GoesWith entry detach first.parent)
    (secondGoes : before.GoesWith entry detach second.parent)
    (firstFollowed : ¬ Spares entry detach first) (secondFollowed : ¬ Spares entry detach second) :
    ¬ outcome.Faithful left := by
  intro faithful
  have takes := fells.takes anchored numbered
  rcases fells.meets anchored foremost different shared firstFollowed secondFollowed with
    retained | still
  · -- It was retained, so it stays: then it was retained once for each parent.
    have stored : (left.get? other.id).isSome = true :=
      Option.isSome_iff_exists.mpr ⟨other, (faithful.held other retained).1⟩
    have twice := (fells.tally anchored different).2 stored
    have once :=
      (nodup_iff_mentions_le_one (fells.same_retained anchored)).mp faithful.once other.id
    have isCause {dependency : Dependency}
        (linked : dependency ∈ before.dependencies ∧ dependency.child = other.id)
        (goes : before.GoesWith entry detach dependency.parent)
        (follows : ¬ Spares entry detach dependency) :
        dependency ∈ before.causes entry detach outcome.deleted other.id := by
      obtain ⟨parent, found⟩ := Option.isSome_iff_exists.mp (anchored dependency linked.1).1
      have same := (numbered _ _ found).1
      exact mem_causes.mpr ⟨linked.1, linked.2, ⟨parent, (takes.reported parent).mpr
        ⟨numbered.holds found, same ▸ goes⟩, same⟩, follows⟩
    have inFirst := isCause shared.first firstGoes firstFollowed
    have inSecond := isCause shared.second secondGoes secondFollowed
    match causes : before.causes entry detach outcome.deleted other.id with
    | [] => rw [causes] at inFirst; exact nomatch inFirst
    | [cause] =>
      rw [causes, List.mem_singleton] at inFirst inSecond
      exact shared.apart (inFirst.trans inSecond.symm ▸ rfl)
    | _ :: _ :: _ =>
      rw [causes] at twice
      simp only [List.length_cons] at twice
      omega
  · -- One parent at least is still there, but both of them go.
    have stored := (((fells.pruned anchored).1.mem_dependencies).mp still.first.1).2.1
    rw [takes.gone first.parent firstGoes] at stored
    exact nomatch stored

end Fells

end Store

/-- **The report of a deletion.** What it names as retained was deleted in the end, or some parent
holds it. The report is faithful, in whatever order the dependencies are stored, exactly if no other
entry depends on two entries that go with the deleted one. -/
theorem faithful_iff_unshared (reachable : service.outages = .none)
    (opened : IsOpen manager service) (numbered : service.store.Numbered)
    (anchored : service.store.Anchored)
    (linkedOnce : (service.store.dependencies.map fun dependency =>
      (dependency.parent, dependency.child)).Nodup)
    (holds : service.store.Holds entry)
    (deletes : (deleteEntry manager entry detach).run.run service = (.ok outcome, after)) :
    (∀ other ∈ outcome.retained,
      other ∈ outcome.deleted ∨ after.store.Holds other ∧ after.store.HasParent other.id) ∧
    ((∀ dependencies, dependencies.Perm service.store.dependencies →
        ∀ reordered reorderedAfter, (deleteEntry manager entry detach).run.run
            (service.reorder dependencies) = (.ok reordered, reorderedAfter) →
          reordered.Faithful reorderedAfter.store) ↔
      service.store.Unshared entry detach) := by
  have free : Unhindered manager service := ⟨reachable, opened, numbered⟩
  obtain ⟨-, fells, orphan⟩ := (fells_deleteEntry free holds detach).of_ok deletes
  refine ⟨fun other => fells.retained_or_deleted anchored, fun faithful => ?_, fun unshared => ?_⟩
  · intro first member second memberToo sameChild different firstGoes secondGoes firstFollowed
      secondFollowed
    refine Classical.byContradiction fun distinct => ?_
    have apart : first.parent ≠ second.parent := fun same => distinct
      (List.inj_on_of_nodup_map linkedOnce member memberToo (Prod.ext same sameChild))
    obtain ⟨other, found⟩ := Option.isSome_iff_exists.mp (anchored first member).2
    have isChild := (numbered _ _ found).1.symm
    obtain ⟨dependencies, order, foremost⟩ :=
      exists_foremost other.id service.store.dependencies
    obtain ⟨reordered, reorderedAfter, deletesToo, fellsToo⟩ :=
      deleteEntry_fells (free.reorder dependencies) (holds_reorder holds dependencies)
        (orphan.imp_right (mt (hasParent_reorder order).mp))
    refine fellsToo.not_faithful (anchored_reorder order anchored) numbered foremost
      (isChild ▸ different) ⟨numbered.holds found, apart, ⟨order.mem_iff.mpr member, isChild⟩,
        order.mem_iff.mpr memberToo, sameChild ▸ isChild⟩ ?_ ?_ firstFollowed secondFollowed
      (faithful dependencies order _ _ deletesToo)
    · rwa [goesWith_reorder order]
    · rwa [goesWith_reorder order]
  · intro dependencies order reordered reorderedAfter deletesToo
    obtain ⟨-, fellsToo, -⟩ := (fells_deleteEntry (free.reorder dependencies)
      (holds_reorder holds dependencies) detach).of_ok deletesToo
    refine fellsToo.faithful (anchored_reorder order anchored)
      (order.nodup_iff.mpr (List.Nodup.of_map _ linkedOnce)) fun first member second memberToo => ?_
    rw [goesWith_reorder order]
    exact unshared first (order.mem_iff.mp member) second (order.mem_iff.mp memberToo)

/-- Something that the object and its part have in common. -/
def ObjectRef.detail : ObjectRef := ⟨.resource, 3⟩

/-- An object that the detail belongs to as well. -/
def ObjectRef.whole : ObjectRef := ⟨.resource, 4⟩

/-- The state after grants on the object and on the whole. The entry on the detail has two parents,
and only the one on the part came with the grant on the object. -/
def Service.upheld : Service :=
  (replay [] { Service.sampleWithPart with
      graph := ⟨[⟨.sample, "parts", .part⟩, ⟨.part, "parts", .detail⟩,
        ⟨.whole, "parts", .detail⟩]⟩ } [
    .call (.manage 0 .begin),
    .call (.manage 0 (.createEntry (.user "1") .sample .reader)),
    .call (.manage 0 (.createEntry (.user "1") .whole .reader)),
    .outages .none]).2

/-- The entry on the whole does not go with the one on the object, so nothing is shared. -/
theorem Service.unshared_upheld :
    Service.upheld.store.Unshared ⟨1, .user "1", .sample, .reader⟩ false := by
  have stored : Service.upheld.store.dependencies =
      [⟨2, 3, .detach⟩, ⟨1, 2, .detach⟩, ⟨4, 3, .detach⟩] := by decide +kernel
  have among {dependency : Dependency} (member : dependency ∈ Service.upheld.store.dependencies) :
      dependency = ⟨2, 3, .detach⟩ ∨ dependency = ⟨1, 2, .detach⟩ ∨
        dependency = ⟨4, 3, .detach⟩ := by
    simpa [stored] using member
  have stays : ¬ Service.upheld.store.GoesWith ⟨1, .user "1", .sample, .reader⟩ false 4 := by
    intro goes
    cases goes with
    | aimed isAimed => exact absurd isAimed (by decide)
    | orphaned followed _ =>
      obtain ⟨dependency, member, isChild, -⟩ := followed
      rcases among member with rfl | rfl | rfl <;> exact absurd isChild (by decide)
  intro first member second memberToo sameChild _ firstGoes secondGoes _ _
  -- Only the first and the last have a child in common, and the last has a parent that stays.
  rcases among member with rfl | rfl | rfl <;> rcases among memberToo with rfl | rfl | rfl
  all_goals first
    | rfl
    | exact absurd sameChild (by decide)
    | exact absurd firstGoes stays
    | exact absurd secondGoes stays

/-- The entry on the detail is retained, as the one on the whole upholds it. -/
theorem faithful_of_upheld : ∃ outcome after,
    (deleteEntry 0 ⟨1, .user "1", .sample, .reader⟩ false).run.run .upheld =
      (.ok outcome, after) ∧
    outcome.retained = [⟨3, .user "1", .detail, .reader⟩] ∧
    ∀ dependencies, dependencies.Perm Service.upheld.store.dependencies →
      ∃ reordered reorderedAfter, (deleteEntry 0 ⟨1, .user "1", .sample, .reader⟩ false).run.run
          (Service.upheld.reorder dependencies) = (.ok reordered, reorderedAfter) ∧
        reordered.Faithful reorderedAfter.store := by
  have intact : Service.upheld.store.Intact := Stays.run (.replayed ..) .empty
  have free : Unhindered 0 Service.upheld := ⟨rfl, by decide +kernel, intact.numbered⟩
  have holds : Service.upheld.store.Holds ⟨1, .user "1", .sample, .reader⟩ := by decide +kernel
  have orphan : ¬ Service.upheld.store.HasParent 1 :=
    dependenciesOfChild_eq_nil_iff.mp (by decide +kernel)
  obtain ⟨outcome, after, deletes, -⟩ :=
    deleteEntry_fells free holds (.inr orphan : false = true ∨ _)
  have faithful := (faithful_iff_unshared free.reachable free.opened free.numbered intact.anchored
    intact.linkedOnce holds deletes).2.mpr Service.unshared_upheld
  have told : ((deleteEntry 0 ⟨1, .user "1", .sample, .reader⟩ false).run.run
      Service.upheld).1.toOption.map (·.retained) =
        some [⟨3, .user "1", .detail, .reader⟩] := by decide +kernel
  rw [deletes] at told
  refine ⟨outcome, after, deletes, Option.some.inj told, fun dependencies order => ?_⟩
  obtain ⟨reordered, reorderedAfter, deletesToo, -⟩ := deleteEntry_fells
    (free.reorder dependencies) (holds_reorder holds dependencies)
    (.inr (mt (hasParent_reorder order).mp orphan) : false = true ∨ _)
  exact ⟨reordered, reorderedAfter, deletesToo,
    faithful dependencies order reordered reorderedAfter deletesToo⟩

/-- The state after a grant on the object. The entry on what it has in common with its part has two
parents, and the dependency on the object comes first. -/
def Service.diamond : Service :=
  (replay [] { Service.sampleWithPart with
      graph := ⟨[⟨.sample, "parts", .detail⟩, ⟨.sample, "parts", .part⟩,
        ⟨.part, "parts", .detail⟩]⟩ } [
    .call (.manage 0 .begin),
    .call (.manage 0 (.createEntry (.user "1") .sample .reader)),
    .outages .none]).2

/-- The entry on the detail is reported as retained and is then deleted. -/
theorem retained_and_deleted : Service.diamond.store.Intact ∧
    Service.diamond.store.Holds ⟨1, .user "1", .sample, .reader⟩ ∧
    ∃ outcome after, (deleteEntry 0 ⟨1, .user "1", .sample, .reader⟩ false).run.run .diamond =
        (.ok outcome, after) ∧
      outcome.retained = [⟨2, .user "1", .detail, .reader⟩] ∧
      ⟨2, .user "1", .detail, .reader⟩ ∈ outcome.deleted ∧ ¬ outcome.Faithful after.store := by
  have told : ((deleteEntry 0 ⟨1, .user "1", .sample, .reader⟩ false).run.run
      Service.diamond).1.toOption = some ⟨[⟨1, .user "1", .sample, .reader⟩,
        ⟨3, .user "1", .part, .reader⟩, ⟨2, .user "1", .detail, .reader⟩],
        [⟨2, .user "1", .detail, .reader⟩]⟩ := by decide +kernel
  refine ⟨Stays.run (.replayed ..) .empty, by decide +kernel, ?_⟩
  generalize (deleteEntry 0 ⟨1, .user "1", .sample, .reader⟩ false).run.run Service.diamond = result
    at told
  obtain ⟨answer, after⟩ := result
  exact ⟨_, after, Prod.ext (ok_of_toOption told) rfl, rfl, by decide,
    fun faithful => faithful.apart _ (.head _) (by decide)⟩

end BookingAccess
