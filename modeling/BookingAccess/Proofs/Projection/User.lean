/-
**What a user projection answers.**

A user projection is settled when it keeps every entry under its own number and the holding on an
object is the one that its entries on this object give. A settled projection answers as its entries
say, and it stays settled whatever comes or goes.

* `Settled.add`, `Settled.remove`: entries that come and go;
* `Settled.hasRole_iff`, `Settled.hasPermission_iff`: the answers;
* `lookup_ofEntries`: what a projection made from a list holds.
-/

import BookingAccess.Projection.User
import BookingAccess.Proofs.OrderedMap

namespace BookingAccess.UserProjection

open OrderedMap

variable {registry : Registry} {projection : UserProjection}

/-- The entries on one object. -/
def entriesAt (projection : UserProjection) (object : ObjectRef) :
    Std.ExtTreeMap EntryId Entry :=
  projection.entries.filter fun _ entry => entry.object == object

/-- Entries are kept under their own numbers, and holdings are what the entries give. -/
structure Settled (registry : Registry) (projection : UserProjection) : Prop where
  numbered : ∀ {id : EntryId} {entry : Entry}, projection.entries[id]? = some entry → entry.id = id
  holding_eq : ∀ object : ObjectRef, projection.holding object =
    Holding.ofEntries registry object.objectClass (projection.entriesAt object)

/-! ### What is kept under a number -/

theorem lookup_entriesAt (object : ObjectRef) (id : EntryId) :
    (projection.entriesAt object)[id]? =
      projection.entries[id]?.filter fun entry => entry.object == object :=
  Std.ExtTreeMap.getElem?_filter'

/-- An entry that comes is kept, unless its number is taken. -/
theorem lookup_add (entry : Entry) (id : EntryId) :
    (projection.add registry entry).2.entries[id]? =
      if entry.id = id then some (projection.entries[id]?.getD entry)
      else projection.entries[id]? := by
  unfold add
  rw [Std.ExtTreeMap.contains_eq_isSome_getElem?]
  cases found : projection.entries[entry.id]? with
  | some kept =>
    by_cases same : entry.id = id
    · subst same
      simp [found]
    · simp [same]
  | none =>
    show (projection.entries.insert entry.id entry)[id]? = _
    rw [lookup_insert]
    by_cases same : entry.id = id
    · subst same
      simp [found]
    · simp [same]

/-- An entry that goes is not kept any more. -/
theorem lookup_remove (entry : Entry) (id : EntryId) :
    (projection.remove registry entry).2.entries[id]? =
      if entry.id = id then none else projection.entries[id]? := by
  unfold remove
  rw [Std.ExtTreeMap.contains_eq_isSome_getElem?]
  cases found : projection.entries[entry.id]? with
  | some kept =>
    show (projection.entries.erase entry.id)[id]? = _
    rw [lookup_erase]
  | none =>
    by_cases same : entry.id = id
    · subst same
      simp [found]
    · simp [same]

/-- Entries that come one after another are kept, the first one under each number. -/
theorem lookup_foldl_add {entries : List Entry}
    (agree : ∀ first ∈ entries, ∀ second ∈ entries, first.id = second.id → first = second)
    (id : EntryId) (entry : Entry) :
    (entries.foldl (fun kept entry => (kept.add registry entry).2) projection).entries[id]? =
        some entry ↔
      projection.entries[id]? = some entry ∨
        projection.entries[id]? = none ∧ entry ∈ entries ∧ entry.id = id := by
  induction entries generalizing projection with
  | nil => simp
  | cons first rest ih =>
    have agreeRest : ∀ a ∈ rest, ∀ b ∈ rest, a.id = b.id → a = b :=
      fun a inA b inB => agree a (.tail _ inA) b (.tail _ inB)
    rw [List.foldl_cons, ih agreeRest, lookup_add]
    by_cases same : first.id = id
    · subst same
      have only : ∀ other ∈ first :: rest, other.id = first.id → other = first :=
        fun other member sameId => agree other member first (.head _) sameId
      cases projection.entries[first.id]? with
      | some kept => simp
      | none =>
        simp only [if_true, Option.getD_none, Option.some.injEq, reduceCtorEq, false_and, or_false,
          false_or, true_and]
        refine ⟨fun equal => equal ▸ ⟨.head _, rfl⟩, fun ⟨member, sameId⟩ => ?_⟩
        exact (only entry member sameId).symm
    · have other : entry.id = id → entry ≠ first := fun sameId equal => same (equal ▸ sameId)
      simp only [same, if_false, List.mem_cons]
      grind

/-- A list of entries that agree on their numbers is kept as it is. -/
theorem lookup_ofEntries {entries : List Entry}
    (agree : ∀ first ∈ entries, ∀ second ∈ entries, first.id = second.id → first = second)
    {id : EntryId} {entry : Entry} :
    (ofEntries registry entries).entries[id]? = some entry ↔ entry ∈ entries ∧ entry.id = id := by
  unfold ofEntries
  rw [lookup_foldl_add agree]
  simp [empty]

/-! ### Settled projections -/

/-- No entries give an empty holding. -/
theorem holding_of_no_entries (objectClass : ObjectClass) :
    Holding.ofEntries registry objectClass ∅ = .empty := by
  simp [Holding.ofEntries, Holding.empty, values_eq_map_snd]

theorem settled_empty : Settled registry empty where
  numbered found := by simp [empty] at found
  holding_eq object := by
    have none : empty.entriesAt object = ∅ := by
      refine Std.ExtTreeMap.ext_getElem? fun id => ?_
      rw [lookup_entriesAt]
      simp [empty]
    rw [none, holding_of_no_entries]
    simp [holding, empty]

/-- What is held on an object once a new entry has come. -/
theorem holding_add {entry : Entry} (new : projection.entries[entry.id]? = none)
    (object : ObjectRef) :
    (projection.add registry entry).2.holding object =
      if entry.object = object then
        Holding.ofEntries registry object.objectClass
          ((projection.holding object).entries.insert entry.id entry)
      else projection.holding object := by
  unfold add
  rw [Std.ExtTreeMap.contains_eq_isSome_getElem?, new]
  show (((projection.holdings.insert entry.object _)[object]?).getD .empty) = _
  rw [lookup_insert]
  by_cases same : entry.object = object
  · subst same
    simp
  · simp [same, holding]

theorem Settled.add (settled : Settled registry projection) (entry : Entry) :
    Settled registry (projection.add registry entry).2 := by
  cases taken : projection.entries[entry.id]? with
  | some kept =>
    have unchanged : (projection.add registry entry).2 = projection := by
      simp [UserProjection.add, Std.ExtTreeMap.contains_eq_isSome_getElem?, taken]
    rw [unchanged]
    exact settled
  | none =>
    have lookup (id : EntryId) : (projection.add registry entry).2.entries[id]? =
        if entry.id = id then some entry else projection.entries[id]? := by
      rw [lookup_add]
      by_cases same : entry.id = id
      · subst same
        simp [taken]
      · simp [same]
    constructor
    · intro id kept found
      rw [lookup] at found
      split at found
      · exact Option.some.inj found ▸ ‹entry.id = id›
      · exact settled.numbered found
    · intro object
      rw [holding_add taken]
      by_cases here : entry.object = object
      · rw [if_pos here, settled.holding_eq]
        refine congrArg _ (Std.ExtTreeMap.ext_getElem? fun id => ?_)
        show ((projection.entriesAt object).insert entry.id entry)[id]? = _
        rw [lookup_insert, lookup_entriesAt, lookup_entriesAt, lookup]
        split <;> simp [Option.filter, here]
      · rw [if_neg here, settled.holding_eq]
        refine congrArg _ (Std.ExtTreeMap.ext_getElem? fun id => ?_)
        rw [lookup_entriesAt, lookup_entriesAt, lookup]
        split
        · subst id
          simp [Option.filter, here, taken]
        · rfl

/-- Where a kept entry goes from an object with a holding, the others of the holding are left. -/
theorem holding_remove {entry : Entry} {held : Holding}
    (kept : projection.entries.contains entry.id = true)
    (found : projection.holdings[entry.object]? = some held) (object : ObjectRef) :
    (projection.remove registry entry).2.holding object =
      if entry.object = object then
        .ofEntries registry object.objectClass (held.entries.erase entry.id)
      else projection.holding object := by
  unfold UserProjection.remove
  rw [if_pos kept]
  unfold holding
  rw [found]
  show ((if (held.entries.erase entry.id).isEmpty = true then
      projection.holdings.erase entry.object
    else projection.holdings.insert entry.object _)[object]?).getD .empty = _
  by_cases last : (held.entries.erase entry.id).isEmpty = true
  · rw [if_pos last, lookup_erase, Std.ExtTreeMap.isEmpty_iff.mp last, holding_of_no_entries]
    split <;> rfl
  · rw [if_neg last, lookup_insert]
    by_cases here : entry.object = object
    · subst here
      simp only [if_true]
      rfl
    · simp only [here, if_false]

/-- What is held on an object once a kept entry has gone. -/
theorem Settled.holding_remove (settled : Settled registry projection) {entry : Entry}
    (kept : projection.entries.contains entry.id = true) (object : ObjectRef) :
    (projection.remove registry entry).2.holding object =
      if entry.object = object then
        Holding.ofEntries registry object.objectClass ((projection.entriesAt object).erase entry.id)
      else projection.holding object := by
  have here := settled.holding_eq entry.object
  unfold holding at here
  cases found : projection.holdings[entry.object]? with
  | none =>
    have unchanged : (projection.remove registry entry).2.holding object =
        projection.holding object := by
      simp [UserProjection.remove, kept, found, holding, refile]
    rw [unchanged]
    by_cases same : entry.object = object
    · subst same
      -- Nothing is kept there, so nothing is left to take away.
      rw [found] at here
      have nothing : projection.entriesAt entry.object = ∅ := congrArg Holding.entries here.symm
      rw [if_pos rfl, holding, found, nothing]
      simp [holding_of_no_entries]
    · rw [if_neg same]
  | some held =>
    rw [found] at here
    have heldEntries : held.entries = projection.entriesAt entry.object :=
      congrArg Holding.entries here
    rw [UserProjection.holding_remove kept found]
    by_cases same : entry.object = object
    · subst same
      rw [if_pos rfl, if_pos rfl, heldEntries]
    · rw [if_neg same, if_neg same]

theorem Settled.remove (settled : Settled registry projection) {entry : Entry}
    (agrees : ∀ kept, projection.entries[entry.id]? = some kept → kept.object = entry.object) :
    Settled registry (projection.remove registry entry).2 := by
  constructor
  · intro id kept found
    rw [lookup_remove] at found
    split at found
    · exact nomatch found
    · exact settled.numbered found
  · intro object
    cases present : projection.entries.contains entry.id with
    | false =>
      have unchanged : (projection.remove registry entry).2 = projection := by
        simp [UserProjection.remove, present]
      rw [unchanged]
      exact settled.holding_eq object
    | true =>
      rw [settled.holding_remove present]
      by_cases here : entry.object = object
      · rw [if_pos here]
        refine congrArg _ (Std.ExtTreeMap.ext_getElem? fun id => ?_)
        rw [lookup_erase, lookup_entriesAt, lookup_entriesAt, lookup_remove]
        split <;> simp
      · rw [if_neg here, settled.holding_eq]
        refine congrArg _ (Std.ExtTreeMap.ext_getElem? fun id => ?_)
        rw [lookup_entriesAt, lookup_entriesAt, lookup_remove]
        split
        · subst id
          cases found : projection.entries[entry.id]? with
          | none => rfl
          | some kept =>
            have elsewhere : kept.object ≠ object := agrees kept found ▸ here
            simp [Option.filter, elsewhere]
        · rfl

theorem settled_foldl_add (settled : Settled registry projection) (entries : List Entry) :
    Settled registry
      (entries.foldl (fun kept entry => (kept.add registry entry).2) projection) := by
  induction entries generalizing projection with
  | nil => exact settled
  | cons entry rest ih => exact ih (settled.add entry)

theorem settled_ofEntries (entries : List Entry) :
    Settled registry (ofEntries registry entries) :=
  settled_foldl_add settled_empty entries

/-! ### Answers -/

namespace Settled

/-- The entries of a holding are those that are kept on the object. -/
theorem lookup_holding (settled : Settled registry projection) {object : ObjectRef}
    {id : EntryId} {entry : Entry} :
    (projection.holding object).entries[id]? = some entry ↔
      projection.entries[id]? = some entry ∧ entry.object = object := by
  rw [settled.holding_eq]
  show (projection.entriesAt object)[id]? = some entry ↔ _
  rw [lookup_entriesAt, Option.filter_eq_some_iff]
  simp

theorem mem_roles_iff (settled : Settled registry projection) {object : ObjectRef} {role : Role} :
    role ∈ projection.roles object ↔
      ∃ (id : EntryId) (entry : Entry), projection.entries[id]? = some entry ∧
        entry.object = object ∧ entry.role = role := by
  have roles : role ∈ projection.roles object ↔
      ∃ entry ∈ (projection.entriesAt object).values, entry.role = role := by
    unfold UserProjection.roles
    rw [settled.holding_eq]
    simp [Holding.ofEntries, Std.ExtTreeSet.mem_ofList]
  rw [roles]
  simp only [mem_values_iff, lookup_entriesAt, Option.filter_eq_some_iff, beq_iff_eq]
  grind

/-- **A role is held through an entry that grants it.** -/
theorem hasRole_iff (settled : Settled registry projection) {object : ObjectRef} {role : Role} :
    projection.hasRole object role = true ↔
      ∃ (id : EntryId) (entry : Entry), projection.entries[id]? = some entry ∧
        entry.object = object ∧ entry.role = role := by
  unfold UserProjection.hasRole
  rw [Std.ExtTreeSet.contains_iff_mem, settled.mem_roles_iff]

/-- **A permission is held through an entry whose role gives it.** -/
theorem hasPermission_iff (settled : Settled registry projection) {object : ObjectRef}
    {permission : Permission} :
    projection.hasPermission object permission = true ↔
      ∃ (id : EntryId) (entry : Entry), projection.entries[id]? = some entry ∧
        entry.object = object ∧
        permission ∈ registry.rolePermissions object.objectClass entry.role := by
  have given : permission ∈ projection.permissions object ↔
      ∃ role ∈ projection.roles object,
        permission ∈ registry.rolePermissions object.objectClass role := by
    unfold UserProjection.permissions UserProjection.roles
    rw [settled.holding_eq]
    simp [Holding.ofEntries, Std.ExtTreeSet.mem_ofList]
  unfold UserProjection.hasPermission
  rw [Std.ExtTreeSet.contains_iff_mem, given]
  simp only [settled.mem_roles_iff]
  grind

end Settled

end BookingAccess.UserProjection
