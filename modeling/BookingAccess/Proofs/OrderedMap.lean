/-
**What an ordered map lists.**

The values of an ordered map are listed in order of their keys. What is in the list is exactly
what is found under some key.

* `values_eq_map_snd`: the values are the second halves of the listed pairs;
* `mem_values_iff`: a value is listed exactly when some key leads to it; `mem_iff_exists`: a key is in
  the map when it leads to some value;
* `pairwise_values`: values are listed as their keys are ordered;
* `nodup_values`: no value is listed twice when no two keys lead to it;
* `lookup_insert`, `lookup_erase`: what is found under a key after a change.
-/

import Std.Data.DTreeMap.Internal.WF.Lemmas
import Std.Data.ExtTreeMap

namespace BookingAccess.OrderedMap

open Std

variable {κ α : Type} [Ord κ] [TransOrd κ]

/-- The values of a map are the second halves of its pairs. -/
theorem values_eq_map_snd (map : ExtTreeMap κ α) : map.values = map.toList.map Prod.snd := by
  obtain ⟨inner⟩ := map
  induction inner using ExtDTreeMap.inductionOn with
  | mk tree =>
    show tree.inner.values = (DTreeMap.Internal.Impl.Const.toList tree.inner).map Prod.snd
    simp [DTreeMap.Internal.Impl.values_eq_map_snd,
      DTreeMap.Internal.Impl.Const.toList_eq_toListModel_map]

/-- **A value is listed exactly when some key leads to it.** -/
theorem mem_values_iff [LawfulEqOrd κ] {map : ExtTreeMap κ α} {value : α} :
    value ∈ map.values ↔ ∃ key : κ, map[key]? = some value := by
  rw [values_eq_map_snd, List.mem_map]
  constructor
  · rintro ⟨⟨key, found⟩, listed, rfl⟩
    exact ⟨key, ExtTreeMap.mem_toList_iff_getElem?_eq_some.mp listed⟩
  · rintro ⟨key, found⟩
    exact ⟨(key, value), ExtTreeMap.mem_toList_iff_getElem?_eq_some.mpr found, rfl⟩

/-- A key is in a map when it leads to a value. -/
theorem mem_iff_exists {map : ExtTreeMap κ α} {key : κ} :
    key ∈ map ↔ ∃ value, map[key]? = some value := by
  rw [ExtTreeMap.mem_iff_isSome_getElem?, Option.isSome_iff_exists]

theorem length_values (map : ExtTreeMap κ α) : map.values.length = map.size := by
  rw [values_eq_map_snd, List.length_map, ExtTreeMap.length_toList]

/-- Values are listed one after another as their keys are. -/
theorem pairwise_values [LawfulEqOrd κ] {map : ExtTreeMap κ α} {before : α → α → Prop}
    (follows : ∀ {first second : κ} {value other : α}, map[first]? = some value →
      map[second]? = some other → compare first second = .lt → before value other) :
    map.values.Pairwise before := by
  rw [values_eq_map_snd]
  refine List.pairwise_map.mpr (ExtTreeMap.ordered_keys_toList.imp_of_mem ?_)
  intro first second listed listedToo
  exact follows (ExtTreeMap.mem_toList_iff_getElem?_eq_some.mp listed)
    (ExtTreeMap.mem_toList_iff_getElem?_eq_some.mp listedToo)

/-- No value is listed twice when no two keys lead to it. -/
theorem nodup_values [LawfulEqOrd κ] {map : ExtTreeMap κ α}
    (once : ∀ {first second : κ} {value : α}, map[first]? = some value →
      map[second]? = some value → first = second) : map.values.Nodup := by
  refine pairwise_values fun {first second value other} found foundToo before same => ?_
  rw [once found (same ▸ foundToo), LawfulEqOrd.compare_eq_iff_eq.mpr rfl] at before
  exact nomatch before

variable [LawfulEqOrd κ] [DecidableEq κ]

theorem lookup_insert (map : ExtTreeMap κ α) (key other : κ) (value : α) :
    (map.insert key value)[other]? = if key = other then some value else map[other]? := by
  by_cases same : key = other <;> simp [ExtTreeMap.getElem?_insert, same]

theorem lookup_erase (map : ExtTreeMap κ α) (key other : κ) :
    (map.erase key)[other]? = if key = other then none else map[other]? := by
  by_cases same : key = other <;> simp [ExtTreeMap.getElem?_erase, same]

end BookingAccess.OrderedMap
