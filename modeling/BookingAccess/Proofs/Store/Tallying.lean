/-
**How often a deletion comes to an entry.**

A deletion comes to an entry once for each dependency on a parent that it deletes. Each time the
entry is retained, but for the last time, if that is when it is deleted itself.

* `linksFrom`: the dependencies of an entry on some of its parents;
* `Cascades.tally`, `Fells.tally`: how often an entry is reported;
* `Cascades.meets`, `Fells.meets`: where the dependencies of an entry are followed first, it is
  retained as soon as one of two parents is deleted.
-/

import BookingAccess.Proofs.Store.Felling

namespace BookingAccess.Store

open Manager (DeleteOutcome)

variable {spared : Dependency → Prop} {before middle after removed : Store}
  {outcome : DeleteOutcome} {entry other : Entry} {entries more : List Entry}
  {dependencies : List Dependency} {dependency first second : Dependency} {detach : Bool}
  {id : EntryId}

theorem countP_either {α : Type} {items : List α} {these those : α → Bool}
    (apart : ∀ item ∈ items, these item = true → those item = false) :
    items.countP (fun item => these item || those item) =
      items.countP these + items.countP those := by
  induction items with
  | nil => rfl
  | cons item items ih =>
    have here := apart item (.head _)
    rw [List.countP_cons, List.countP_cons, List.countP_cons,
      ih fun other member => apart other (.tail _ member)]
    cases isThis : these item with
    | false => simp; omega
    | true => simp [here isThis]; omega

/-- The number of dependencies of an entry on these parents. -/
def linksFrom (store : Store) (parents : List Entry) (id : EntryId) : Nat :=
  (store.dependenciesOfChild id).countP fun dependency => parents.any (·.id == dependency.parent)

theorem linksFrom_append (store : Store)
    (apart : ∀ entry ∈ entries, ∀ other ∈ more, entry.id ≠ other.id) :
    store.linksFrom (entries ++ more) id =
      store.linksFrom entries id + store.linksFrom more id := by
  unfold linksFrom
  simp only [List.any_append]
  refine countP_either fun dependency _ isLink => ?_
  obtain ⟨entry, listed, same⟩ := List.any_eq_true.mp isLink
  refine List.any_eq_false.mpr fun other listedToo sameToo => ?_
  exact absurd ((beq_iff_eq.mp same).trans (beq_iff_eq.mp sameToo).symm)
    (apart entry listed other listedToo)

theorem linksFrom_single (store : Store) (parent : Entry) :
    store.linksFrom [parent] id =
      (store.dependenciesOfParent parent.id).countP (·.child == id) := by
  unfold linksFrom dependenciesOfParent dependenciesOfChild
  rw [List.countP_filter, List.countP_filter]
  refine List.countP_congr fun dependency _ => ?_
  simp only [List.any_cons, List.any_nil, Bool.or_false, Bool.and_eq_true, beq_iff_eq]
  exact ⟨fun ⟨isParent, isChild⟩ => ⟨isChild, isParent.symm⟩,
    fun ⟨isChild, isParent⟩ => ⟨isParent.symm, isChild⟩⟩

/-- Of the dependencies of an entry that stays on parents that stay, none is lost. -/
theorem Pruned.linksFrom_eq (pruned : Pruned spared before after)
    (stays : ∀ entry ∈ entries, (after.get? entry.id).isSome = true)
    (stored : (after.get? id).isSome = true) :
    after.linksFrom entries id = before.linksFrom entries id := by
  unfold linksFrom dependenciesOfChild
  rw [pruned.dependencies, List.filter_filter, List.countP_filter, List.countP_filter]
  refine List.countP_congr fun dependency _ => ?_
  simp only [Bool.and_eq_true, List.any_eq_true, beq_iff_eq]
  refine ⟨fun ⟨isLink, isChild, _⟩ => ⟨isLink, isChild⟩, fun ⟨isLink, isChild⟩ =>
    ⟨isLink, isChild, ?_, isChild ▸ stored⟩⟩
  obtain ⟨entry, listed, isParent⟩ := isLink
  exact isParent ▸ stays entry listed

theorem Pruned.linksFrom_le (pruned : Pruned spared before after) (entries : List Entry)
    (id : EntryId) : after.linksFrom entries id ≤ before.linksFrom entries id := by
  unfold linksFrom dependenciesOfChild
  rw [pruned.dependencies]
  exact (List.filter_sublist.filter _).countP_le

/-- The deletion of one entry. -/
theorem Pruned.ofRemoval (anchored : before.Anchored)
    (result : before.deleteEntry id = .ok after) : Pruned (fun _ => True) before after :=
  .ofDeletion result (.refl (anchored.deleteEntry result))
    fun _ _ _ unspared => absurd trivial unspared

/-- The number of entries in the list with this number. -/
def mentions (entries : List Entry) (id : EntryId) : Nat := entries.countP (·.id == id)

/-- **An entry is reported at most once for each dependency** that is followed to it, and exactly so
often if it stays. -/
theorem Cascades.tally (cascades : Cascades before dependencies outcome after)
    (anchored : before.Anchored) (id : EntryId) :
    mentions outcome.retained id + mentions outcome.deleted id ≤
        dependencies.countP (·.child == id) + before.linksFrom outcome.deleted id ∧
      ((after.get? id).isSome = true → mentions outcome.retained id =
        dependencies.countP (·.child == id) + before.linksFrom outcome.deleted id) := by
  induction cascades with
  | done store => simp [mentions, DeleteOutcome.empty, linksFrom]
  | @gone before after dependency rest outcome free next ih =>
    obtain ⟨most, exactly⟩ := ih anchored
    rw [List.countP_cons]
    refine ⟨by omega, fun stored => ?_⟩
    have different : (dependency.child == id) = false := by
      refine beq_eq_false_iff_ne.mpr fun same => ?_
      rw [← same, (next.pruned anchored).1.gone free] at stored
      exact nomatch stored
    simpa [different] using exactly stored
  | @held before after dependency rest outcome child isChild holds parented next ih =>
    obtain ⟨most, exactly⟩ := ih anchored
    simp only [mentions, List.countP_cons, isChild] at most exactly ⊢
    exact ⟨by omega, fun stored => by rw [exactly stored]; omega⟩
  | @felled before removed middle after dependency rest below outcome child isChild holds orphan
      result children next ihChildren ihNext =>
    have atRemoved := anchored.deleteEntry result
    obtain ⟨toMiddle, -⟩ := children.pruned atRemoved
    have toRemoved : Pruned (fun _ => True) before removed := .ofRemoval anchored result
    have free : removed.get? child.id = none := (get?_of_deleteEntry result).trans (if_pos rfl)
    have heldBelow : ∀ other ∈ below.deleted, removed.Holds other := fun other listed =>
      ((children.mem_deleted_iff atRemoved).mp listed).1
    have heldLate : ∀ other ∈ outcome.deleted, middle.Holds other := fun other listed =>
      ((next.mem_deleted_iff toMiddle.anchored).mp listed).1
    -- No entry is deleted at two of the three places.
    have notChild {other : Entry} (held : removed.Holds other) : child.id ≠ other.id :=
      fun same => nomatch (same ▸ free).symm.trans held
    have split : before.linksFrom (child :: (below.deleted ++ outcome.deleted)) id =
        before.linksFrom [child] id +
          (before.linksFrom below.deleted id + before.linksFrom outcome.deleted id) := by
      rw [← linksFrom_append, ← linksFrom_append]
      · rfl
      · rintro _ listed other listedToo
        obtain rfl := List.mem_singleton.mp listed
        exact notChild ((List.mem_append.mp listedToo).elim (heldBelow other)
          fun late => toMiddle.within (heldLate other late))
      · intro entry early other late same
        have gone := ((children.mem_deleted_iff atRemoved).mp early).2
        exact nomatch (same ▸ gone).symm.trans (heldLate other late)
    rw [split, linksFrom_single]
    simp only [mentions, List.countP_cons, List.countP_append, isChild] at ihChildren ihNext ⊢
    obtain ⟨mostBelow, exactlyBelow⟩ := ihChildren atRemoved
    obtain ⟨mostLate, exactlyLate⟩ := ihNext toMiddle.anchored
    constructor
    · have fewerBelow := toRemoved.linksFrom_le below.deleted id
      have fewerLate := (toRemoved.trans toMiddle).linksFrom_le outcome.deleted id
      omega
    · intro stored
      have isSome {store : Store} {kept : Entry} (held : store.Holds kept) :
          (store.get? kept.id).isSome = true := Option.isSome_iff_exists.mpr ⟨kept, held⟩
      obtain ⟨kept, found⟩ := Option.isSome_iff_exists.mp stored
      have atMiddle := (next.pruned toMiddle.anchored).1.within found
      have different : (child.id == id) = false := by
        refine beq_eq_false_iff_ne.mpr fun same => ?_
        exact nomatch (same ▸ free).symm.trans (toMiddle.within atMiddle)
      rw [exactlyBelow (by rw [atMiddle]; rfl), exactlyLate stored,
        toRemoved.linksFrom_eq (fun other listed => isSome (heldBelow other listed))
          (by rw [toMiddle.within atMiddle]; rfl),
        (toRemoved.trans toMiddle).linksFrom_eq (fun other listed => isSome (heldLate other listed))
          (by rw [atMiddle]; rfl), different]
      simp only [Bool.false_eq_true, if_false]
      omega

/-! ### The whole deletion -/

/-- The dependencies of an entry that a deletion comes to it by. -/
def causes (store : Store) (entry : Entry) (detach : Bool) (deleted : List Entry) (id : EntryId) :
    List Dependency :=
  (store.dependenciesOfChild id).filter fun dependency =>
    deleted.any (·.id == dependency.parent) &&
      !(dependency.parent == entry.id && dependency.kind == .detach && detach)

theorem mem_causes : dependency ∈ before.causes entry detach entries id ↔
    dependency ∈ before.dependencies ∧ dependency.child = id ∧
      (∃ parent ∈ entries, parent.id = dependency.parent) ∧ ¬ Spares entry detach dependency := by
  have spares : (dependency.parent == entry.id && dependency.kind == .detach && detach) = true ↔
      Spares entry detach dependency := by simp [Spares, and_assoc]
  unfold causes dependenciesOfChild
  simp only [List.mem_filter, beq_iff_eq, Bool.and_eq_true (List.any ..), List.any_eq_true,
    Bool.not_eq_true', ← Bool.not_eq_true (_ && _), spares, and_assoc]

theorem length_causes (different : id ≠ entry.id)
    (notRoot : ∀ other ∈ entries, other.id ≠ entry.id) :
    (before.causes entry detach (entry :: entries) id).length =
      (before.followed entry detach).countP (·.child == id) + before.linksFrom entries id := by
  have fromRoot : (before.followed entry detach).countP (·.child == id) =
      (before.dependenciesOfChild id).countP fun dependency =>
        dependency.parent == entry.id && !(dependency.kind == .detach && detach) := by
    unfold followed cutOff dependenciesOfParent dependenciesOfChild
    simp only [List.filter_filter, List.countP_filter]
    refine List.countP_congr fun dependency _ => ?_
    cases isChild : dependency.child == id with
    | false => simp
    | true => simp [beq_iff_eq.mp isChild, different, and_comm]
  have apart {dependency : Dependency} (isRoot : (dependency.parent == entry.id) = true) :
      entries.any (·.id == dependency.parent) = false :=
    List.any_eq_false.mpr fun other listed same =>
      notRoot other listed ((beq_iff_eq.mp same).trans (beq_iff_eq.mp isRoot))
  rw [fromRoot, linksFrom, causes, ← List.countP_eq_length_filter,
    ← countP_either fun _ _ isRoot => apart (Bool.and_eq_true_iff.mp isRoot).1]
  refine List.countP_congr fun dependency _ => ?_
  rw [List.any_cons, @BEq.comm _ _ _ entry.id]
  cases isRoot : dependency.parent == entry.id with
  | false => simp only [Bool.false_or, Bool.false_and, Bool.not_false, Bool.and_true]
  | true => simp only [apart isRoot, Bool.or_false, Bool.true_and]

/-- **An entry is reported at most once for each dependency** that the deletion comes to it by, and
exactly so often if it stays. -/
theorem Fells.tally (fells : Fells entry detach before outcome after) (anchored : before.Anchored)
    (different : id ≠ entry.id) :
    mentions outcome.retained id + mentions outcome.deleted id ≤
        (before.causes entry detach outcome.deleted id).length ∧
      ((after.get? id).isSome = true →
        mentions outcome.retained id = (before.causes entry detach outcome.deleted id).length) := by
  obtain ⟨holds, result, children⟩ := fells
  rename_i removed below
  have atRemoved := anchored.deleteEntry result
  have toRemoved : Pruned (fun _ => True) before removed := .ofRemoval anchored result
  have held : ∀ other ∈ below.deleted, removed.Holds other := fun other listed =>
    ((children.mem_deleted_iff atRemoved).mp listed).1
  have free : removed.get? entry.id = none := (get?_of_deleteEntry result).trans (if_pos rfl)
  have notRoot : ∀ other ∈ below.deleted, other.id ≠ entry.id := fun other listed same =>
    nomatch (same ▸ free).symm.trans (held other listed)
  rw [length_causes different notRoot]
  obtain ⟨most, exactly⟩ := children.tally atRemoved id
  constructor
  · have fewer := toRemoved.linksFrom_le below.deleted id
    simp only [mentions, List.countP_cons, beq_eq_false_iff_ne.mpr different.symm] at most ⊢
    simp only [Bool.false_eq_true, if_false]
    omega
  · intro stored
    obtain ⟨kept, found⟩ := Option.isSome_iff_exists.mp stored
    rw [exactly stored, toRemoved.linksFrom_eq]
    · exact fun other listed => Option.isSome_iff_exists.mpr ⟨other, held other listed⟩
    · rw [(children.pruned atRemoved).1.within found]
      rfl

/-! ### Dependencies that are followed first -/

/-- The dependencies of this entry come before all others. -/
def Foremost (id : EntryId) (dependencies : List Dependency) : Prop :=
  dependencies.Pairwise fun earlier later => later.child = id → earlier.child = id

theorem Foremost.sublist (foremost : Foremost id dependencies) {fewer : List Dependency}
    (within : fewer.Sublist dependencies) : Foremost id fewer :=
  List.Pairwise.sublist within foremost

/-- The first of these dependencies is one of the entry, if any is. -/
theorem Foremost.head (foremost : Foremost id (first :: dependencies))
    (listed : dependency ∈ first :: dependencies) (isChild : dependency.child = id) :
    first.child = id := by
  rcases List.mem_cons.mp listed with rfl | later
  · exact isChild
  · exact List.rel_of_pairwise_cons foremost later isChild

/-- The entry is retained if a dependency on it is followed first and some parent holds it. -/
theorem Cascades.retains (cascades : Cascades before dependencies outcome after)
    (foremost : Foremost other.id dependencies) (holds : before.Holds other)
    (listed : dependency ∈ dependencies) (isChild : dependency.child = other.id)
    (parented : before.HasParent other.id) : other ∈ outcome.retained := by
  cases cascades with
  | done => exact nomatch listed
  | gone free _ =>
    rw [foremost.head listed isChild, show before.get? other.id = some other from holds] at free
    exact nomatch free
  | held sameChild held _ _ =>
    rw [holds.eq_of_id held ((foremost.head listed isChild).symm.trans sameChild)]
    exact .head _
  | felled sameChild _ orphan _ _ _ =>
    rw [← sameChild, foremost.head listed isChild] at orphan
    exact absurd parented orphan

/-- The entry has these two parents. -/
structure Shared (store : Store) (entry : Entry) (first second : Dependency) : Prop where
  holds : store.Holds entry
  apart : first.parent ≠ second.parent
  first : first ∈ store.dependencies ∧ first.child = entry.id
  second : second ∈ store.dependencies ∧ second.child = entry.id

namespace Shared

theorem hasParent (shared : Shared before other first second) : before.HasParent other.id :=
  ⟨first, shared.first⟩

/-- An entry is deleted: the two parents are still there, or one of them is, and the other one was
deleted. -/
theorem deleteEntry (shared : Shared before other first second) (different : other.id ≠ entry.id)
    (result : before.deleteEntry entry.id = .ok removed) :
    Shared removed other first second ∨ removed.Holds other ∧ removed.HasParent other.id ∧
      ∃ dependency, (dependency = first ∨ dependency = second) ∧ dependency.parent = entry.id := by
  have holds : removed.Holds other := by
    unfold Holds
    rw [get?_of_deleteEntry result, if_neg different.symm]
    exact shared.holds
  have kept {dependency : Dependency}
      (earlier : dependency ∈ before.dependencies ∧ dependency.child = other.id)
      (apart : dependency.parent ≠ entry.id) :
      dependency ∈ removed.dependencies ∧ dependency.child = other.id :=
    ⟨(mem_dependencies_of_deleteEntry result).mpr
      ⟨earlier.1, apart, earlier.2.symm ▸ different⟩, earlier.2⟩
  by_cases isFirst : first.parent = entry.id
  · exact .inr ⟨holds, ⟨second, kept shared.second (isFirst ▸ shared.apart.symm)⟩, first, .inl rfl,
      isFirst⟩
  by_cases isSecond : second.parent = entry.id
  · exact .inr ⟨holds, ⟨first, kept shared.first isFirst⟩, second, .inr rfl, isSecond⟩
  · exact .inl ⟨holds, shared.apart, kept shared.first isFirst, kept shared.second isSecond⟩

end Shared

/-- **One of two parents is deleted** only if the entry is retained. -/
theorem Cascades.meets (cascades : Cascades before dependencies outcome after)
    (anchored : before.Anchored) (foremost : Foremost other.id before.dependencies)
    (shared : Shared before other first second) :
    other ∈ outcome.retained ∨ Shared after other first second := by
  induction cascades with
  | done => exact .inr shared
  | gone _ _ ih => exact ih anchored foremost shared
  | held _ _ _ _ ih => exact (ih anchored foremost shared).imp_left (.tail _)
  | @felled before removed middle after dependency rest below outcome child isChild holds orphan
      result children next ihChildren ihNext =>
    have atRemoved := anchored.deleteEntry result
    obtain ⟨toMiddle, -⟩ := children.pruned atRemoved
    have within : removed.dependencies.Sublist before.dependencies := by
      rw [(deleteEntry_eq_ok_iff.mp result).2]
      exact List.filter_sublist
    have later : middle.dependencies.Sublist removed.dependencies := by
      rw [toMiddle.dependencies]
      exact List.filter_sublist
    have different : other.id ≠ child.id := fun same => orphan (same ▸ shared.hasParent)
    rcases shared.deleteEntry different result with still | ⟨held, parented, link, isOne, isParent⟩
    · rcases ihChildren atRemoved (foremost.sublist within) still with early | still
      · exact .inl (List.mem_append_left _ early)
      · exact (ihNext toMiddle.anchored (foremost.sublist (later.trans within)) still).imp_left
          (List.mem_append_right _)
    · obtain ⟨member, sameChild⟩ : link ∈ before.dependencies ∧ link.child = other.id := by
        rcases isOne with rfl | rfl
        · exact shared.first
        · exact shared.second
      exact .inl (List.mem_append_left _ (children.retains (foremost.sublist List.filter_sublist)
        held (List.mem_filter.mpr ⟨member, beq_iff_eq.mpr isParent⟩) sameChild parented))

theorem Fells.meets (fells : Fells entry detach before outcome after) (anchored : before.Anchored)
    (foremost : Foremost other.id before.dependencies) (different : other.id ≠ entry.id)
    (shared : Shared before other first second) (firstFollowed : ¬ Spares entry detach first)
    (secondFollowed : ¬ Spares entry detach second) :
    other ∈ outcome.retained ∨ Shared after other first second := by
  obtain ⟨-, result, children⟩ := fells
  rename_i removed below
  rcases shared.deleteEntry different result with still | ⟨held, parented, link, isOne, isParent⟩
  · refine children.meets (anchored.deleteEntry result) (foremost.sublist ?_) still
    rw [(deleteEntry_eq_ok_iff.mp result).2]
    exact List.filter_sublist
  · obtain ⟨⟨member, sameChild⟩, follows⟩ :
        (link ∈ before.dependencies ∧ link.child = other.id) ∧ ¬ Spares entry detach link := by
      rcases isOne with rfl | rfl
      · exact ⟨shared.first, firstFollowed⟩
      · exact ⟨shared.second, secondFollowed⟩
    refine .inl (children.retains (foremost.sublist ?_) held
      (mem_followed.mpr ⟨member, isParent, sameChild ▸ different, follows⟩) sameChild parented)
    exact List.filter_sublist.trans (List.filter_sublist.trans List.filter_sublist)

end BookingAccess.Store
