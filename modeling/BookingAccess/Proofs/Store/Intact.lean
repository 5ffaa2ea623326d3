/-
**What the calls of the store do, and what they keep.**

No two entries of a store grant the same, no two dependencies run between the same entries, and both
ends of a dependency are stored. Each call keeps that, whatever it is handed.

* `createEntry_eq_ok_iff` and its like: when a call is not refused, and the store that it leaves;
* `Store.Intact`; `Intact.createEntry`, `Intact.deleteEntry`, `Intact.createDependency`,
  `Intact.deleteDependency`: it is kept.
-/

import BookingAccess.Proofs.Store

namespace BookingAccess.Store

open OrderedMap

variable {store after : Store} {entry other : Entry} {dependency : Dependency}
  {identity : Identity} {object : ObjectRef} {role : Role} {id parent child : EntryId}

/-! ### The calls -/

/-- A new entry gets the next number; a grant that is stored already is refused. -/
theorem createEntry_eq_ok_iff :
    store.createEntry identity object role = .ok (entry, after) ↔
      store.find? identity object role = none ∧
        entry = ⟨store.lastId + 1, identity, object, role⟩ ∧
        after = { store with
          lastId := store.lastId + 1, entries := store.entries.insert entry.id entry } := by
  unfold createEntry
  cases store.find? identity object role with
  | some found => simp
  | none =>
    simp only [Option.isSome_none, Bool.false_eq_true, if_false, Except.ok.injEq, Prod.mk.injEq,
      true_and]
    constructor
    · rintro ⟨rfl, rfl⟩
      exact ⟨rfl, rfl⟩
    · rintro ⟨rfl, rfl⟩
      exact ⟨rfl, rfl⟩

theorem deleteEntry_eq_ok_iff :
    store.deleteEntry id = .ok after ↔
      (store.get? id).isSome = true ∧
        after = { store with
          entries := store.entries.erase id
          dependencies := store.dependencies.filter fun dependency => !dependency.touches id } := by
  unfold deleteEntry get?
  rw [Std.ExtTreeMap.contains_eq_isSome_getElem?]
  split
  · rename_i stored
    exact ⟨fun result => ⟨stored, (Except.ok.inj result).symm⟩, fun ⟨_, same⟩ => same ▸ rfl⟩
  · rename_i absent
    exact ⟨fun refused => (nomatch refused), fun ⟨stored, _⟩ => absurd stored absent⟩

/-- An entry that is not stored cannot be deleted. -/
theorem deleteEntry_of_unstored (unstored : store.get? id = none) :
    store.deleteEntry id = .error (.entryNotFound id) := by
  unfold get? at unstored
  simp [deleteEntry, Std.ExtTreeMap.contains_eq_isSome_getElem?, unstored]

/-- Two entries are linked if both are stored and they are not linked yet. -/
theorem createDependency_eq_ok_iff :
    store.createDependency dependency = .ok after ↔
      store.findDependency? dependency.parent dependency.child = none ∧
        (store.get? dependency.parent).isSome = true ∧
        (store.get? dependency.child).isSome = true ∧
        after = { store with dependencies := store.dependencies ++ [dependency] } := by
  unfold createDependency get?
  simp only [Std.ExtTreeMap.contains_eq_isSome_getElem?]
  cases store.findDependency? dependency.parent dependency.child with
  | some found => simp
  | none =>
    cases store.entries[dependency.parent]? with
    | none => simp
    | some first =>
      cases store.entries[dependency.child]? with
      | none => simp
      | some second => exact ⟨fun result => ⟨rfl, rfl, rfl, (Except.ok.inj result).symm⟩,
          fun ⟨_, _, _, same⟩ => same ▸ rfl⟩

/-- A link from an entry that is not stored is refused. -/
theorem createDependency_of_unstored {kind : DependencyKind}
    (absent : store.findDependency? parent child = none) (unstored : store.get? parent = none) :
    store.createDependency ⟨parent, child, kind⟩ = .error (.entryNotFound parent) := by
  unfold get? at unstored
  simp [createDependency, absent, Std.ExtTreeMap.contains_eq_isSome_getElem?, unstored]

theorem get?_of_createEntry (result : store.createEntry identity object role = .ok (entry, after)) :
    after.get? id = if entry.id = id then some entry else store.get? id := by
  obtain ⟨-, -, rfl⟩ := createEntry_eq_ok_iff.mp result
  exact lookup_insert _ _ _ _

theorem get?_of_deleteEntry (result : store.deleteEntry id = .ok after) {number : EntryId} :
    after.get? number = if id = number then none else store.get? number := by
  obtain ⟨-, rfl⟩ := deleteEntry_eq_ok_iff.mp result
  exact lookup_erase _ _ _

theorem mem_dependencies_of_deleteEntry (result : store.deleteEntry id = .ok after) :
    dependency ∈ after.dependencies ↔
      dependency ∈ store.dependencies ∧ dependency.parent ≠ id ∧ dependency.child ≠ id := by
  obtain ⟨-, rfl⟩ := deleteEntry_eq_ok_iff.mp result
  simp [Dependency.touches]

theorem mem_dependencies_of_deleteDependency :
    dependency ∈ (store.deleteDependency parent child).dependencies ↔
      dependency ∈ store.dependencies ∧
        ¬ (dependency.parent = parent ∧ dependency.child = child) := by
  simp only [deleteDependency, List.mem_filter, Bool.not_eq_true', Bool.eq_false_iff, ne_eq,
    Dependency.links_iff]

theorem findDependency?_eq_none_iff : store.findDependency? parent child = none ↔
    ∀ dependency ∈ store.dependencies,
      ¬ (dependency.parent = parent ∧ dependency.child = child) := by
  simp [findDependency?]

namespace Numbered

theorem find?_eq_none_iff (numbered : store.Numbered) :
    store.find? identity object role = none ↔
      ∀ entry, store.Holds entry →
        ¬ (entry.identity = identity ∧ entry.object = object ∧ entry.role = role) := by
  simp only [find?, List.find?_eq_none, numbered.mem_entryList, Entry.grants_iff]

theorem createEntry (numbered : store.Numbered)
    (result : store.createEntry identity object role = .ok (entry, after)) : after.Numbered := by
  intro number kept found
  obtain ⟨-, rfl, same⟩ := createEntry_eq_ok_iff.mp result
  have lastId : after.lastId = store.lastId + 1 := by rw [same]
  rw [get?_of_createEntry result] at found
  rw [lastId]
  split at found
  · obtain rfl := Option.some.inj found
    rename_i isNew
    exact ⟨isNew, Nat.le_of_eq isNew.symm⟩
  · obtain ⟨ownNumber, given⟩ := numbered number kept found
    exact ⟨ownNumber, Nat.le_succ_of_le given⟩

theorem deleteEntry (numbered : store.Numbered) (result : store.deleteEntry id = .ok after) :
    after.Numbered := by
  intro number kept found
  have lastId : after.lastId = store.lastId := by
    obtain ⟨-, rfl⟩ := deleteEntry_eq_ok_iff.mp result
    rfl
  rw [get?_of_deleteEntry result] at found
  rw [lastId]
  split at found
  · exact nomatch found
  · exact numbered number kept found

/-- The next number is free. -/
theorem get?_next (numbered : store.Numbered) : store.get? (store.lastId + 1) = none := by
  cases found : store.get? (store.lastId + 1) with
  | none => rfl
  | some entry => exact absurd (numbered _ _ found).2 (Nat.not_succ_le_self _)

theorem holds_createEntry (numbered : store.Numbered)
    (result : store.createEntry identity object role = .ok (entry, after)) :
    after.Holds other ↔ other = entry ∨ store.Holds other := by
  obtain ⟨-, isNew, -⟩ := createEntry_eq_ok_iff.mp result
  unfold Holds
  rw [get?_of_createEntry result]
  split
  · rename_i same
    have free : store.get? other.id = none := by
      rw [← same, isNew]
      exact numbered.get?_next
    rw [free]
    simp [eq_comm]
  · rename_i different
    refine ⟨.inr, fun found => found.resolve_left ?_⟩
    rintro rfl
    exact different rfl

end Numbered

theorem holds_deleteEntry (holds : store.Holds entry)
    (result : store.deleteEntry entry.id = .ok after) :
    after.Holds other ↔ store.Holds other ∧ other ≠ entry := by
  unfold Holds
  rw [get?_of_deleteEntry result]
  split
  · rename_i same
    refine ⟨fun never => (nomatch never), fun ⟨found, different⟩ => absurd ?_ different⟩
    exact Holds.eq_of_id found holds same.symm
  · rename_i different
    refine ⟨fun found => ⟨found, ?_⟩, And.left⟩
    rintro rfl
    exact different rfl

/-! ### Intact stores -/

/-- Both ends of every dependency are stored. -/
def Anchored (store : Store) : Prop :=
  ∀ dependency ∈ store.dependencies,
    (store.get? dependency.parent).isSome = true ∧ (store.get? dependency.child).isSome = true

structure Intact (store : Store) : Prop where
  numbered : store.Numbered
  /-- No two entries grant the same. -/
  once : ∀ {first second}, store.Holds first → store.Holds second →
    first.identity = second.identity → first.object = second.object → first.role = second.role →
    first = second
  /-- No two dependencies run between the same entries. -/
  linkedOnce : (store.dependencies.map fun dependency =>
    (dependency.parent, dependency.child)).Nodup
  anchored : store.Anchored

/-- Entries that are still stored anchor what they anchored before. -/
theorem Anchored.mono (anchored : store.Anchored)
    (within : ∀ dependency ∈ after.dependencies, dependency ∈ store.dependencies)
    (stays : ∀ dependency ∈ after.dependencies, ∀ number,
      number = dependency.parent ∨ number = dependency.child →
        after.get? number = store.get? number) : after.Anchored := by
  intro dependency member
  rw [stays dependency member _ (.inl rfl), stays dependency member _ (.inr rfl)]
  exact anchored dependency (within dependency member)

namespace Anchored

theorem createEntry (anchored : store.Anchored)
    (result : store.createEntry identity object role = .ok (entry, after)) : after.Anchored := by
  have still {number : EntryId} (stored : (store.get? number).isSome = true) :
      (after.get? number).isSome = true := by
    rw [get?_of_createEntry result]
    split
    · rfl
    · exact stored
  obtain ⟨-, -, same⟩ := createEntry_eq_ok_iff.mp result
  intro dependency member
  have earlier : dependency ∈ store.dependencies := by rwa [same] at member
  exact (anchored dependency earlier).imp still still

theorem deleteEntry (anchored : store.Anchored) (result : store.deleteEntry id = .ok after) :
    after.Anchored := by
  refine anchored.mono (fun dependency member =>
    ((mem_dependencies_of_deleteEntry result).mp member).1) fun dependency member number isEnd => ?_
  obtain ⟨-, notParent, notChild⟩ := (mem_dependencies_of_deleteEntry result).mp member
  rw [get?_of_deleteEntry result, if_neg]
  rintro rfl
  exact isEnd.elim (notParent ·.symm) (notChild ·.symm)

theorem createDependency (anchored : store.Anchored)
    (result : store.createDependency dependency = .ok after) : after.Anchored := by
  obtain ⟨-, parentStored, childStored, rfl⟩ := createDependency_eq_ok_iff.mp result
  intro other member
  rcases List.mem_append.mp member with earlier | isNew
  · exact anchored other earlier
  · obtain rfl := List.mem_singleton.mp isNew
    exact ⟨parentStored, childStored⟩

theorem deleteDependency (anchored : store.Anchored) :
    (store.deleteDependency parent child).Anchored :=
  anchored.mono (fun _ member => (mem_dependencies_of_deleteDependency.mp member).1)
    fun _ _ _ _ => rfl

end Anchored

namespace Intact

theorem empty : Store.empty.Intact where
  numbered _ _ found := nomatch Std.ExtTreeMap.getElem?_empty.symm.trans found
  once holds := nomatch Std.ExtTreeMap.getElem?_empty.symm.trans holds
  linkedOnce := .nil
  anchored _ member := nomatch member

theorem createEntry (intact : store.Intact)
    (result : store.createEntry identity object role = .ok (entry, after)) : after.Intact where
  numbered := intact.numbered.createEntry result
  once {first second} firstHeld secondHeld sameIdentity sameObject sameRole := by
    obtain ⟨notFound, isNew, -⟩ := createEntry_eq_ok_iff.mp result
    have unlike {old : Entry} (held : store.Holds old) : ¬ (old.identity = entry.identity ∧
        old.object = entry.object ∧ old.role = entry.role) := by
      subst isNew
      exact intact.numbered.find?_eq_none_iff.mp notFound old held
    rcases (intact.numbered.holds_createEntry result).mp firstHeld with rfl | firstHeld
    all_goals rcases (intact.numbered.holds_createEntry result).mp secondHeld with rfl | secondHeld
    · rfl
    · exact absurd ⟨sameIdentity.symm, sameObject.symm, sameRole.symm⟩ (unlike secondHeld)
    · exact absurd ⟨sameIdentity, sameObject, sameRole⟩ (unlike firstHeld)
    · exact intact.once firstHeld secondHeld sameIdentity sameObject sameRole
  linkedOnce := by
    obtain ⟨-, -, rfl⟩ := createEntry_eq_ok_iff.mp result
    exact intact.linkedOnce
  anchored := intact.anchored.createEntry result

theorem deleteEntry (intact : store.Intact) (result : store.deleteEntry id = .ok after) :
    after.Intact where
  numbered := intact.numbered.deleteEntry result
  once firstHeld secondHeld := by
    have held {kept : Entry} (holds : after.Holds kept) : store.Holds kept := by
      unfold Holds at holds
      rw [get?_of_deleteEntry result] at holds
      split at holds
      · exact nomatch holds
      · exact holds
    exact intact.once (held firstHeld) (held secondHeld)
  linkedOnce := by
    obtain ⟨-, rfl⟩ := deleteEntry_eq_ok_iff.mp result
    exact intact.linkedOnce.sublist (List.filter_sublist.map _)
  anchored := intact.anchored.deleteEntry result

theorem createDependency (intact : store.Intact)
    (result : store.createDependency dependency = .ok after) : after.Intact where
  numbered := by
    obtain ⟨-, -, -, rfl⟩ := createDependency_eq_ok_iff.mp result
    exact intact.numbered
  once := by
    obtain ⟨-, -, -, rfl⟩ := createDependency_eq_ok_iff.mp result
    exact intact.once
  linkedOnce := by
    obtain ⟨notLinked, -, -, rfl⟩ := createDependency_eq_ok_iff.mp result
    rw [List.map_append, List.nodup_append]
    refine ⟨intact.linkedOnce, List.pairwise_singleton _ _, ?_⟩
    rintro _ linked _ isNew rfl
    obtain ⟨other, member, same⟩ := List.mem_map.mp linked
    rw [List.map_singleton, List.mem_singleton, ← same, Prod.mk.injEq] at isNew
    exact findDependency?_eq_none_iff.mp notLinked other member isNew
  anchored := intact.anchored.createDependency result

theorem deleteDependency (intact : store.Intact) :
    (store.deleteDependency parent child).Intact where
  numbered := intact.numbered
  once := intact.once
  linkedOnce := intact.linkedOnce.sublist (List.filter_sublist.map _)
  anchored := intact.anchored.deleteDependency

end Intact

end BookingAccess.Store
