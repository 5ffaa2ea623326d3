/-
**What working sets record.**

Working sets list entries under their numbers. As long as they record entries as these were given
out, recording one more changes the sets by this entry alone.

* `WorkingSets.Adds`, `WorkingSets.Removes`, `WorkingSets.Cancels`: what was recorded of an entry;
* `Recorded`: the sets record what was given out; `mem_added` and its like: so they list it;
* `lookup_added_add`, `lookup_added_remove`: what is listed as added after one more record, whatever
  that is; `adds_add`, `adds_remove` and their like: the sets after one that was given out;
* `Discards`: the entry with a number was deleted; `SameUnder`, `RecordsOnce`: what the sets record
  under a number.
-/

import BookingAccess.Proofs.OrderedMap
import BookingAccess.Transaction.WorkingSets

namespace BookingAccess

open OrderedMap

/-- Whatever was given out is still known as given out. -/
def Extends (given more : EntryId → Option Entry) : Prop :=
  ∀ {id entry}, given id = some entry → more id = some entry

/-- What was given out, with one entry more. -/
def giveOut (given : EntryId → Option Entry) (entry : Entry) (id : EntryId) : Option Entry :=
  if entry.id = id then some entry else given id

theorem giveOut_extends {given : EntryId → Option Entry} {entry : Entry}
    (fresh : given entry.id = none) : Extends given (giveOut given entry) := by
  intro id other isGiven
  unfold giveOut
  split
  · subst id
    exact nomatch fresh.symm.trans isGiven
  · exact isGiven

namespace WorkingSets

/-- The entry was added, and not removed again. -/
def Adds (sets : WorkingSets) (entry : Entry) : Prop := sets.added[entry.id]? = some entry

/-- The entry was removed, and had not been added before. -/
def Removes (sets : WorkingSets) (entry : Entry) : Prop := sets.removed[entry.id]? = some entry

/-- The entry was added and removed again. -/
def Cancels (sets : WorkingSets) (entry : Entry) : Prop := sets.cancelled[entry.id]? = some entry

/-- The entry was removed, whether it had been added before or not. -/
def Drops (sets : WorkingSets) (entry : Entry) : Prop := sets.Removes entry ∨ sets.Cancels entry

/-- The number of an entry that was dropped. -/
def DropsId (sets : WorkingSets) (id : EntryId) : Prop := ∃ entry, sets.Drops entry ∧ entry.id = id

/-- The sets record entries as they were given out, each under its own number. -/
structure Recorded (given : EntryId → Option Entry) (sets : WorkingSets) : Prop where
  own : ∀ {id entry}, given id = some entry → entry.id = id
  added : ∀ {id : EntryId} {entry}, sets.added[id]? = some entry → given id = some entry
  removed : ∀ {id : EntryId} {entry}, sets.removed[id]? = some entry → given id = some entry
  cancelled : ∀ {id : EntryId} {entry}, sets.cancelled[id]? = some entry → given id = some entry

/-- What is listed is found under its own number. -/
theorem mem_values_of_given {map : Std.ExtTreeMap EntryId Entry}
    {given : EntryId → Option Entry} (own : ∀ {id entry}, given id = some entry → entry.id = id)
    (isGiven : ∀ {id : EntryId} {entry}, map[id]? = some entry → given id = some entry)
    {entry : Entry} : entry ∈ map.values ↔ map[entry.id]? = some entry := by
  rw [mem_values_iff]
  refine ⟨fun ⟨id, found⟩ => ?_, fun found => ⟨_, found⟩⟩
  have number := own (isGiven found)
  subst number
  exact found

/-- Where two maps have no entry in common they have no number in common. -/
theorem disjoint_of_given {first second : Std.ExtTreeMap EntryId Entry}
    {given : EntryId → Option Entry} (own : ∀ {id entry}, given id = some entry → entry.id = id)
    (firstGiven : ∀ {id : EntryId} {entry}, first[id]? = some entry → given id = some entry)
    (secondGiven : ∀ {id : EntryId} {entry}, second[id]? = some entry → given id = some entry)
    (apart : ∀ entry : Entry, first[entry.id]? = some entry → second[entry.id]? ≠ some entry)
    (id : EntryId) : ¬ (id ∈ first ∧ id ∈ second) := by
  rintro ⟨inFirst, inSecond⟩
  obtain ⟨entry, found⟩ : ∃ entry, first[id]? = some entry :=
    ⟨_, Std.ExtTreeMap.getElem?_eq_some_getElem inFirst⟩
  obtain ⟨other, alsoFound⟩ : ∃ entry, second[id]? = some entry :=
    ⟨_, Std.ExtTreeMap.getElem?_eq_some_getElem inSecond⟩
  have isGiven := firstGiven found
  obtain rfl : entry = other := Option.some.inj (isGiven.symm.trans (secondGiven alsoFound))
  have number := own isGiven
  subst number
  exact apart entry found alsoFound

variable {given more : EntryId → Option Entry} {sets : WorkingSets} {entry other : Entry}

namespace Recorded

theorem empty (own : ∀ {id entry}, given id = some entry → entry.id = id) :
    WorkingSets.empty.Recorded given := by
  refine ⟨own, ?_, ?_, ?_⟩
  all_goals
    intro id entry found
    exact nomatch Std.ExtTreeMap.getElem?_empty.symm.trans found

theorem mono (recorded : sets.Recorded given) (extends' : Extends given more)
    (own : ∀ {id entry}, more id = some entry → entry.id = id) : sets.Recorded more :=
  ⟨own, fun found => extends' (recorded.added found),
    fun found => extends' (recorded.removed found),
    fun found => extends' (recorded.cancelled found)⟩

theorem mem_added (recorded : sets.Recorded given) : entry ∈ sets.added.values ↔ sets.Adds entry :=
  mem_values_of_given recorded.own recorded.added

theorem mem_removed (recorded : sets.Recorded given) :
    entry ∈ sets.removed.values ↔ sets.Removes entry :=
  mem_values_of_given recorded.own recorded.removed

theorem mem_cancelled (recorded : sets.Recorded given) :
    entry ∈ sets.cancelled.values ↔ sets.Cancels entry :=
  mem_values_of_given recorded.own recorded.cancelled

theorem given_of_drops (recorded : sets.Recorded given) (drops : sets.Drops entry) :
    given entry.id = some entry :=
  drops.elim recorded.removed recorded.cancelled

/-- What was never given out was not removed. -/
theorem removed_fresh (recorded : sets.Recorded given) {id : EntryId} (fresh : given id = none) :
    sets.removed[id]? = none := by
  cases found : sets.removed[id]? with
  | none => rfl
  | some removed => exact nomatch fresh.symm.trans (recorded.removed found)

end Recorded

/-! ### One record more -/

theorem lookup_added_add {id : EntryId} (found : (sets.add entry).added[id]? = some other) :
    entry.id = id ∧ entry = other ∨ sets.added[id]? = some other := by
  unfold add at found
  split at found
  · exact .inr found
  · rw [lookup_insert] at found
    split at found
    · exact .inl ⟨‹_›, Option.some.inj found⟩
    · exact .inr found

theorem lookup_added_remove {id : EntryId} (found : (sets.remove entry).added[id]? = some other) :
    entry.id ≠ id ∧ sets.added[id]? = some other := by
  unfold remove at found
  split at found
  · rw [lookup_erase] at found
    split at found
    · exact nomatch found
    · exact ⟨‹_›, found⟩
  · rename_i absent
    refine ⟨?_, found⟩
    rintro rfl
    exact nomatch absent.symm.trans found

theorem lookup_removed_add {id : EntryId} (found : (sets.add entry).removed[id]? = some other) :
    entry.id ≠ id ∧ sets.removed[id]? = some other := by
  unfold add at found
  split at found
  · rw [lookup_erase] at found
    split at found
    · exact nomatch found
    · exact ⟨‹_›, found⟩
  · rename_i absent
    refine ⟨?_, found⟩
    rintro rfl
    rw [Std.ExtTreeMap.contains_eq_isSome_getElem?, found] at absent
    exact absent rfl

theorem lookup_removed_remove {id : EntryId}
    (found : (sets.remove entry).removed[id]? = some other) :
    entry.id = id ∨ sets.removed[id]? = some other := by
  unfold remove at found
  split at found
  · exact .inr found
  · rw [lookup_insert] at found
    split at found
    · exact .inl ‹_›
    · exact .inr found

theorem add_of_fresh (fresh : sets.removed[entry.id]? = none) :
    sets.add entry = { sets with added := sets.added.insert entry.id entry } := by
  unfold add
  simp [Std.ExtTreeMap.contains_eq_isSome_getElem?, fresh]

theorem removes_add (fresh : sets.removed[entry.id]? = none) :
    (sets.add entry).Removes other ↔ sets.Removes other := by
  rw [add_of_fresh fresh]
  rfl

theorem cancels_add (fresh : sets.removed[entry.id]? = none) :
    (sets.add entry).Cancels other ↔ sets.Cancels other := by
  rw [add_of_fresh fresh]
  rfl

/-- Entries under the same number are the same. -/
theorem eq_of_given (isGiven : given entry.id = some entry)
    (otherGiven : given other.id = some other) (same : entry.id = other.id) : other = entry := by
  rw [same, otherGiven] at isGiven
  exact Option.some.inj isGiven

/-- An entry whose number was dropped was dropped itself. -/
theorem Recorded.drops_of_dropsId (recorded : sets.Recorded given)
    (isGiven : given entry.id = some entry) (dropsId : sets.DropsId entry.id) :
    sets.Drops entry := by
  obtain ⟨dropped, drops, same⟩ := dropsId
  have equal : dropped = entry := eq_of_given isGiven (recorded.given_of_drops drops) same.symm
  exact equal ▸ drops

/-- What is found in a map with one entry more is this entry or was found before. -/
theorem lookup_insert_given {map : Std.ExtTreeMap EntryId Entry}
    (isGiven : given entry.id = some entry)
    (others : map[other.id]? = some other → given other.id = some other) :
    (map.insert entry.id entry)[other.id]? = some other ↔
      other = entry ∨ map[other.id]? = some other := by
  rw [lookup_insert]
  split
  · rename_i same
    refine ⟨fun found => .inl (Option.some.inj found).symm, ?_⟩
    rintro (rfl | found)
    · rfl
    · exact congrArg some (eq_of_given isGiven (others found) same).symm
  · rename_i different
    refine ⟨.inr, fun found => found.resolve_left ?_⟩
    rintro rfl
    exact different rfl

/-- What is found in a map with one entry less was found before and is another one. -/
theorem lookup_erase_given {map : Std.ExtTreeMap EntryId Entry}
    (isGiven : given entry.id = some entry)
    (others : map[other.id]? = some other → given other.id = some other) :
    (map.erase entry.id)[other.id]? = some other ↔ map[other.id]? = some other ∧ other ≠ entry := by
  rw [lookup_erase]
  split
  · rename_i same
    refine ⟨fun never => (nomatch never), fun ⟨found, different⟩ => ?_⟩
    exact absurd (eq_of_given isGiven (others found) same) different
  · rename_i different
    refine ⟨fun found => ⟨found, ?_⟩, And.left⟩
    rintro rfl
    exact different rfl

theorem given_of_insert {map : Std.ExtTreeMap EntryId Entry} (isGiven : given entry.id = some entry)
    (others : ∀ {id : EntryId} {other}, map[id]? = some other → given id = some other)
    {id : EntryId} (found : (map.insert entry.id entry)[id]? = some other) :
    given id = some other := by
  rw [lookup_insert] at found
  split at found
  · rename_i same
    rw [← same, isGiven]
    exact found
  · exact others found

theorem given_of_erase {map : Std.ExtTreeMap EntryId Entry} {number : EntryId}
    (others : ∀ {id : EntryId} {other}, map[id]? = some other → given id = some other)
    {id : EntryId} (found : (map.erase number)[id]? = some other) : given id = some other := by
  rw [lookup_erase] at found
  split at found
  · exact nomatch found
  · exact others found

section Records

variable (recorded : sets.Recorded given) (isGiven : given entry.id = some entry)

include recorded isGiven

theorem adds_add (fresh : sets.removed[entry.id]? = none) :
    (sets.add entry).Adds other ↔ other = entry ∨ sets.Adds other := by
  rw [add_of_fresh fresh]
  exact lookup_insert_given isGiven recorded.added

omit recorded isGiven in
theorem remove_of_adds (adds : sets.Adds entry) : sets.remove entry = { sets with
    added := sets.added.erase entry.id
    cancelled := sets.cancelled.insert entry.id entry } := by
  unfold remove
  split
  · rename_i added found
    rw [Option.some.inj (found.symm.trans adds)]
  · rename_i absent
    exact nomatch absent.symm.trans adds

theorem remove_of_not_adds (stays : ¬ sets.Adds entry) : sets.remove entry = { sets with
    removed := sets.removed.insert entry.id entry } := by
  unfold remove
  split
  · rename_i added found
    rw [recorded.added found] at isGiven
    exact absurd (Option.some.inj isGiven ▸ found) stays
  · rfl

theorem adds_remove : (sets.remove entry).Adds other ↔ sets.Adds other ∧ other ≠ entry := by
  by_cases adds : sets.Adds entry
  · rw [remove_of_adds adds]
    exact lookup_erase_given isGiven recorded.added
  · rw [remove_of_not_adds recorded isGiven adds]
    refine ⟨fun found => ⟨found, ?_⟩, And.left⟩
    rintro rfl
    exact adds found

theorem removes_remove :
    (sets.remove entry).Removes other ↔
      other = entry ∧ ¬ sets.Adds entry ∨ sets.Removes other := by
  by_cases adds : sets.Adds entry
  · rw [remove_of_adds adds]
    simp only [adds, not_true, and_false, false_or]
    rfl
  · rw [remove_of_not_adds recorded isGiven adds]
    simp only [adds, not_false_eq_true, and_true]
    exact lookup_insert_given isGiven recorded.removed

theorem cancels_remove :
    (sets.remove entry).Cancels other ↔
      other = entry ∧ sets.Adds entry ∨ sets.Cancels other := by
  by_cases adds : sets.Adds entry
  · rw [remove_of_adds adds]
    simp only [adds, and_true]
    exact lookup_insert_given isGiven recorded.cancelled
  · rw [remove_of_not_adds recorded isGiven adds]
    simp only [adds, and_false, false_or]
    rfl

theorem drops_remove : (sets.remove entry).Drops other ↔ other = entry ∨ sets.Drops other := by
  unfold Drops
  rw [removes_remove recorded isGiven, cancels_remove recorded isGiven]
  by_cases adds : sets.Adds entry <;> grind

theorem Recorded.add (fresh : sets.removed[entry.id]? = none) :
    (sets.add entry).Recorded given := by
  rw [add_of_fresh fresh]
  exact { recorded with added := given_of_insert isGiven recorded.added }

theorem Recorded.remove : (sets.remove entry).Recorded given := by
  by_cases adds : sets.Adds entry
  · rw [remove_of_adds adds]
    exact { recorded with
      added := given_of_erase recorded.added
      cancelled := given_of_insert isGiven recorded.cancelled }
  · rw [remove_of_not_adds recorded isGiven adds]
    exact { recorded with removed := given_of_insert isGiven recorded.removed }

end Records

/-! ### What is recorded under a number -/

section Under

variable {later : WorkingSets} {id : EntryId}

/-- The entry with this number was deleted, whether it had been added before or not. -/
def Discards (sets : WorkingSets) (id : EntryId) : Prop := id ∈ sets.removed ∨ id ∈ sets.cancelled

instance : Decidable (sets.Discards id) := inferInstanceAs (Decidable (_ ∨ _))

theorem not_discards_empty : ¬ WorkingSets.empty.Discards id :=
  not_or.mpr ⟨Std.ExtTreeMap.not_mem_empty, Std.ExtTreeMap.not_mem_empty⟩

/-- The same is recorded under this number. -/
structure SameUnder (id : EntryId) (sets later : WorkingSets) : Prop where
  removed : later.removed[id]? = sets.removed[id]?
  cancelled : later.cancelled[id]? = sets.cancelled[id]?

protected theorem SameUnder.refl (sets : WorkingSets) : SameUnder id sets sets := ⟨rfl, rfl⟩

theorem SameUnder.mem_removed (same : SameUnder id sets later) :
    id ∈ later.removed ↔ id ∈ sets.removed := by
  simp only [mem_iff_exists, same.removed]

theorem SameUnder.mem_cancelled (same : SameUnder id sets later) :
    id ∈ later.cancelled ↔ id ∈ sets.cancelled := by
  simp only [mem_iff_exists, same.cancelled]

theorem SameUnder.discards_iff (same : SameUnder id sets later) :
    later.Discards id ↔ sets.Discards id := or_congr same.mem_removed same.mem_cancelled

/-- An entry that is added is recorded under its own number. -/
theorem sameUnder_add (different : entry.id ≠ id) : SameUnder id sets (sets.add entry) := by
  unfold add
  split
  · exact ⟨(lookup_erase ..).trans (if_neg different), rfl⟩
  · exact ⟨rfl, rfl⟩

/-- An entry that is removed is recorded under its own number. -/
theorem sameUnder_remove (different : entry.id ≠ id) : SameUnder id sets (sets.remove entry) := by
  unfold remove
  split
  · exact ⟨rfl, (lookup_insert ..).trans (if_neg different)⟩
  · exact ⟨(lookup_insert ..).trans (if_neg different), rfl⟩

/-- What is recorded under this number is recorded once, of an entry that has it. -/
structure RecordsOnce (id : EntryId) (sets : WorkingSets) : Prop where
  own : ∀ {entry : Entry}, sets.removed[id]? = some entry ∨ sets.cancelled[id]? = some entry →
    entry.id = id
  once : id ∈ sets.cancelled → id ∉ sets.removed

/-- Where no deletion is recorded under the number, there is nothing to be said. -/
theorem RecordsOnce.of_not_discards (unspent : ¬ sets.Discards id) : sets.RecordsOnce id where
  own recorded := by
    refine absurd (recorded.imp ?_ ?_) unspent
    all_goals exact fun found => mem_iff_exists.mpr ⟨_, found⟩
  once cancelled := absurd (.inr cancelled) unspent

theorem RecordsOnce.same (recorded : sets.RecordsOnce id) (same : SameUnder id sets later) :
    later.RecordsOnce id where
  own found := recorded.own (same.removed ▸ same.cancelled ▸ found)
  once cancelled := mt same.mem_removed.mp (recorded.once (same.mem_cancelled.mp cancelled))

/-- A new number stays unused among the deletions. -/
theorem sameUnder_add_fresh (unspent : ¬ sets.Discards entry.id) :
    SameUnder entry.id sets (sets.add entry) := by
  rw [add_of_fresh (Std.ExtTreeMap.getElem?_eq_none fun removed => unspent (.inl removed))]
  exact ⟨rfl, rfl⟩

theorem discards_remove : (sets.remove entry).Discards entry.id := by
  unfold remove
  split
  · exact .inr Std.ExtTreeMap.mem_insert_self
  · exact .inl Std.ExtTreeMap.mem_insert_self

/-- A deletion that is the first under its number is recorded once. -/
theorem RecordsOnce.remove (unspent : ¬ sets.Discards entry.id)
    (added : ∀ {other : Entry}, sets.added[entry.id]? = some other → other.id = entry.id) :
    (sets.remove entry).RecordsOnce entry.id := by
  have unrecorded := RecordsOnce.of_not_discards unspent
  unfold WorkingSets.remove
  split
  · rename_i other found
    refine ⟨fun recorded => recorded.elim (unrecorded.own ∘ .inl) fun cancelled => ?_,
      fun _ removed => unspent (.inl removed)⟩
    obtain rfl := Option.some.inj (Std.ExtTreeMap.getElem?_insert_self.symm.trans cancelled)
    exact added found
  · refine ⟨fun recorded => recorded.elim (fun removed => ?_) (unrecorded.own ∘ .inr),
      fun cancelled _ => unspent (.inr cancelled)⟩
    obtain rfl := Option.some.inj (Std.ExtTreeMap.getElem?_insert_self.symm.trans removed)
    rfl

end Under

end WorkingSets

end BookingAccess
