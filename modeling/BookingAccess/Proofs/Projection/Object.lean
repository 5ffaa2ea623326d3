/-
**What an object projection answers.**

An object projection is summed up when it keeps every entry under its own number and the users of a
role are those of its entries with this role, all together. It stays so whatever comes or goes.

* `Summed.add`, `Summed.remove`: entries that come and go;
* `Summed.usersWithRole_eq`: the users of a role are the union over a list of its entries;
* `lookup_ofEntries`: what a projection made from a list holds.
-/

import BookingAccess.Projection.Object
import BookingAccess.Proofs.OrderedMap

namespace BookingAccess

/-! ### Unions of sets of users -/

namespace UserIds

variable {α : Type}

theorem isEveryone_iff {users : UserIds} : users.isEveryone = true ↔ users = .everyone := by
  cases users <;> simp [isEveryone]

theorem isEveryone_union (first second : UserIds) :
    (first.union second).isEveryone = (first.isEveryone || second.isEveryone) := by
  cases first <;> cases second <;> rfl

/-- Sets of users are the same when they agree on being everyone and on their members. -/
theorem eq_of_same {first second : UserIds} (everyone : first.isEveryone = second.isEveryone)
    (members : ∀ user, first.contains user = second.contains user) : first = second := by
  cases first with
  | everyone =>
    cases second with
    | everyone => rfl
    | only ids => exact nomatch everyone
  | only ids =>
    cases second with
    | everyone => exact nomatch everyone
    | only more => exact ext members

/-- The users of all these items together. -/
def unionOver (users : α → UserIds) (items : List α) : UserIds :=
  items.foldl (fun all item => all.union (users item)) .empty

theorem isEveryone_foldl_union {users : α → UserIds} {items : List α} {start : UserIds} :
    (items.foldl (fun all item => all.union (users item)) start).isEveryone = true ↔
      start.isEveryone = true ∨ ∃ item ∈ items, (users item).isEveryone = true := by
  induction items generalizing start with
  | nil => simp
  | cons item items ih =>
    rw [List.foldl_cons, ih, isEveryone_union]
    simp [or_assoc]

theorem contains_foldl_union {users : α → UserIds} {items : List α} {start : UserIds}
    {user : UserId} :
    (items.foldl (fun all item => all.union (users item)) start).contains user = true ↔
      start.contains user = true ∨ ∃ item ∈ items, (users item).contains user = true := by
  induction items generalizing start with
  | nil => simp
  | cons item items ih =>
    rw [List.foldl_cons, ih, contains_union]
    simp [or_assoc]

theorem isEveryone_unionOver {users : α → UserIds} {items : List α} :
    (unionOver users items).isEveryone = true ↔
      ∃ item ∈ items, (users item).isEveryone = true := by
  unfold unionOver
  rw [isEveryone_foldl_union]
  simp [empty, isEveryone]

theorem contains_unionOver {users : α → UserIds} {items : List α} {user : UserId} :
    (unionOver users items).contains user = true ↔
      ∃ item ∈ items, (users item).contains user = true := by
  unfold unionOver
  rw [contains_foldl_union]
  simp

end UserIds

namespace ObjectProjection

open OrderedMap

variable {projection : ObjectProjection}

/-- Entries are kept under their own numbers, and the users of a role are those of its entries. -/
structure Summed (projection : ObjectProjection) : Prop where
  numbered : ∀ {id : EntryId} {holder : ResolvedEntry},
    projection.entries[id]? = some holder → holder.entry.id = id
  isEveryone_iff : ∀ role, (projection.usersWithRole role).isEveryone = true ↔
    ∃ (id : EntryId) (holder : ResolvedEntry), projection.entries[id]? = some holder ∧
      holder.entry.role = role ∧ holder.users.isEveryone = true
  contains_iff : ∀ role user, (projection.usersWithRole role).contains user = true ↔
    ∃ (id : EntryId) (holder : ResolvedEntry), projection.entries[id]? = some holder ∧
      holder.entry.role = role ∧ holder.users.contains user = true

/-- The projection of a list of entries, when each identity stands for these users. -/
def ofEntries (users : Identity → UserIds) (entries : List Entry) : ObjectProjection :=
  entries.foldl (fun kept entry => (kept.add entry (users entry.identity)).2) empty

/-! ### What is kept under a number -/

/-- An entry that comes is kept, unless its number is taken. -/
theorem lookup_add (entry : Entry) (users : UserIds) (id : EntryId) :
    (projection.add entry users).2.entries[id]? =
      if entry.id = id then some (projection.entries[id]?.getD ⟨entry, users⟩)
      else projection.entries[id]? := by
  unfold add
  rw [Std.ExtTreeMap.contains_eq_isSome_getElem?]
  cases found : projection.entries[entry.id]? with
  | some kept =>
    by_cases same : entry.id = id
    · subst same
      simp [found]
    · simp [same]
  | none =>
    show (projection.entries.insert entry.id ⟨entry, users⟩)[id]? = _
    rw [lookup_insert]
    by_cases same : entry.id = id
    · subst same
      simp [found]
    · simp [same]

/-- An entry that goes is not kept any more. -/
theorem lookup_remove (entry : Entry) (id : EntryId) :
    (projection.remove entry).2.entries[id]? =
      if entry.id = id then none else projection.entries[id]? := by
  unfold remove
  cases found : projection.entries[entry.id]? with
  | some kept =>
    show (projection.entries.erase entry.id)[id]? = _
    rw [lookup_erase]
  | none =>
    by_cases same : entry.id = id
    · subst same
      simp [found]
    · simp [same]

/-- Entries that come one after another are kept, the first one under each number. -/
theorem lookup_foldl_add {users : Identity → UserIds} {entries : List Entry}
    (agree : ∀ first ∈ entries, ∀ second ∈ entries, first.id = second.id → first = second)
    (id : EntryId) (holder : ResolvedEntry) :
    (entries.foldl (fun kept entry => (kept.add entry (users entry.identity)).2)
        projection).entries[id]? = some holder ↔
      projection.entries[id]? = some holder ∨
        projection.entries[id]? = none ∧ holder.entry ∈ entries ∧ holder.entry.id = id ∧
          holder.users = users holder.entry.identity := by
  induction entries generalizing projection with
  | nil => simp
  | cons first rest ih =>
    have agreeRest : ∀ a ∈ rest, ∀ b ∈ rest, a.id = b.id → a = b :=
      fun a inA b inB => agree a (.tail _ inA) b (.tail _ inB)
    rw [List.foldl_cons, ih agreeRest, lookup_add]
    by_cases same : first.id = id
    · subst same
      have only : ∀ other ∈ first :: rest, other.id = first.id → other = first :=
        fun other member sameId => agree other member first (.head _) sameId
      cases projection.entries[first.id]? with
      | some kept => simp
      | none =>
        obtain ⟨entry, held⟩ := holder
        simp only [if_true, Option.getD_none, Option.some.injEq, reduceCtorEq, false_and, or_false,
          false_or, true_and, ResolvedEntry.mk.injEq]
        refine ⟨fun ⟨sameEntry, sameUsers⟩ => ?_, fun ⟨member, sameId, sameUsers⟩ => ?_⟩
        · subst sameEntry sameUsers
          exact ⟨.head _, rfl, rfl⟩
        · have sameEntry := only entry member sameId
          subst sameEntry
          exact ⟨rfl, sameUsers.symm⟩
    · have other : holder.entry.id = id → holder.entry ≠ first :=
        fun sameId equal => same (equal ▸ sameId)
      simp only [same, if_false, List.mem_cons]
      grind

/-- A list of entries that agree on their numbers is kept, with the users that they stand for. -/
theorem lookup_ofEntries {users : Identity → UserIds} {entries : List Entry}
    (agree : ∀ first ∈ entries, ∀ second ∈ entries, first.id = second.id → first = second)
    {id : EntryId} {holder : ResolvedEntry} :
    (ofEntries users entries).entries[id]? = some holder ↔
      holder.entry ∈ entries ∧ holder.entry.id = id ∧
        holder.users = users holder.entry.identity := by
  unfold ofEntries
  rw [lookup_foldl_add agree]
  simp [empty]

/-! ### Projections that are summed up -/

theorem summed_empty : Summed empty where
  numbered found := by simp [empty] at found
  isEveryone_iff role := by simp [usersWithRole, empty, UserIds.empty, UserIds.isEveryone]
  contains_iff role user := by simp [usersWithRole, empty]

theorem usersWithRole_add {entry : Entry} {users : UserIds}
    (new : projection.entries[entry.id]? = none) (role : Role) :
    (projection.add entry users).2.usersWithRole role =
      if entry.role = role then (projection.usersWithRole role).union users
      else projection.usersWithRole role := by
  unfold add
  rw [Std.ExtTreeMap.contains_eq_isSome_getElem?, new]
  show ((projection.members.insert entry.role _)[role]?).getD .empty = _
  rw [lookup_insert]
  by_cases same : entry.role = role
  · subst same
    simp
  · simp [same, usersWithRole]

theorem Summed.add (summed : Summed projection) (entry : Entry) (users : UserIds) :
    Summed (projection.add entry users).2 := by
  cases taken : projection.entries[entry.id]? with
  | some kept =>
    have unchanged : (projection.add entry users).2 = projection := by
      simp [ObjectProjection.add, Std.ExtTreeMap.contains_eq_isSome_getElem?, taken]
    rw [unchanged]
    exact summed
  | none =>
    have lookup (id : EntryId) : (projection.add entry users).2.entries[id]? =
        if entry.id = id then some ⟨entry, users⟩ else projection.entries[id]? := by
      rw [lookup_add]
      by_cases same : entry.id = id
      · subst same
        simp [taken]
      · simp [same]
    constructor
    · intro id holder found
      rw [lookup] at found
      split at found
      · exact Option.some.inj found ▸ ‹entry.id = id›
      · exact summed.numbered found
    · intro role
      rw [usersWithRole_add taken]
      simp only [lookup]
      have := summed.isEveryone_iff role
      split
      · rw [UserIds.isEveryone_union, Bool.or_eq_true, this]
        grind
      · grind
    · intro role user
      rw [usersWithRole_add taken]
      simp only [lookup]
      have := summed.contains_iff role user
      split
      · rw [UserIds.contains_union, Bool.or_eq_true, this]
        grind
      · grind

/-- The users of a role once a kept entry has gone. -/
theorem usersWithRole_remove {entry : Entry} {removed : ResolvedEntry}
    (kept : projection.entries[entry.id]? = some removed) (role : Role) :
    (projection.remove entry).2.usersWithRole role =
      if removed.entry.role = role then
        UserIds.unionOver ResolvedEntry.users
          ((projection.entries.erase entry.id).values.filter (·.entry.role == role))
      else projection.usersWithRole role := by
  generalize holders : (fun other => (projection.entries.erase entry.id).values.filter
    (·.entry.role == other)) = holdersOf
  have members : (projection.remove entry).2.members =
      if (holdersOf removed.entry.role).isEmpty then projection.members.erase removed.entry.role
      else
        projection.members.insert removed.entry.role
          (unionOf (holdersOf removed.entry.role)) := by
    subst holders
    unfold remove
    rw [kept]
  rw [show (projection.entries.erase entry.id).values.filter (·.entry.role == role) =
    holdersOf role from congrFun holders role]
  unfold usersWithRole
  rw [members]
  by_cases same : removed.entry.role = role
  · subst same
    rw [if_pos rfl]
    cases holdersOf removed.entry.role with
    | nil =>
      show ((projection.members.erase removed.entry.role)[removed.entry.role]?).getD .empty = _
      rw [lookup_erase, if_pos rfl]
      rfl
    | cons first rest =>
      show ((projection.members.insert removed.entry.role
        (unionOf (first :: rest)))[removed.entry.role]?).getD .empty = _
      rw [lookup_insert, if_pos rfl]
      rfl
  · rw [if_neg same]
    split
    · rw [lookup_erase, if_neg same]
    · rw [lookup_insert, if_neg same]

theorem Summed.remove (summed : Summed projection) (entry : Entry) :
    Summed (projection.remove entry).2 := by
  cases kept : projection.entries[entry.id]? with
  | none =>
    have unchanged : (projection.remove entry).2 = projection := by
      simp [ObjectProjection.remove, kept]
    rw [unchanged]
    exact summed
  | some removed =>
    have left (role : Role) (holder : ResolvedEntry) :
        holder ∈ (projection.entries.erase entry.id).values.filter (·.entry.role == role) ↔
          ∃ id : EntryId, (projection.remove entry).2.entries[id]? = some holder ∧
            holder.entry.role = role := by
      simp [List.mem_filter, mem_values_iff, lookup_erase, lookup_remove]
    constructor
    · intro id holder found
      rw [lookup_remove] at found
      split at found
      · exact nomatch found
      · exact summed.numbered found
    · intro role
      rw [usersWithRole_remove kept]
      split
      · rw [UserIds.isEveryone_unionOver]
        simp only [left]
        grind
      · rw [summed.isEveryone_iff]
        simp only [lookup_remove]
        grind
    · intro role user
      rw [usersWithRole_remove kept]
      split
      · rw [UserIds.contains_unionOver]
        simp only [left]
        grind
      · rw [summed.contains_iff]
        simp only [lookup_remove]
        grind

theorem summed_foldl_add (summed : Summed projection) (users : Identity → UserIds)
    (entries : List Entry) :
    Summed (entries.foldl (fun kept entry => (kept.add entry (users entry.identity)).2)
      projection) := by
  induction entries generalizing projection with
  | nil => exact summed
  | cons entry rest ih => exact ih (summed.add entry (users entry.identity))

theorem summed_ofEntries (users : Identity → UserIds) (entries : List Entry) :
    Summed (ofEntries users entries) :=
  summed_foldl_add summed_empty users entries

/-- **The users of a role are the union over its entries.** The list names the entries of the
projection, and every entry is kept with the users that its identity stands for. -/
theorem Summed.usersWithRole_eq (summed : Summed projection) {users : Identity → UserIds}
    {entries : List Entry} {role : Role}
    (listed : ∀ entry, (∃ (id : EntryId) (holder : ResolvedEntry),
      projection.entries[id]? = some holder ∧ holder.entry = entry) ∧ entry.role = role ↔
        entry ∈ entries)
    (resolved : ∀ {id : EntryId} {holder : ResolvedEntry}, projection.entries[id]? = some holder →
      holder.users = users holder.entry.identity) :
    projection.usersWithRole role =
      UserIds.unionOver (fun entry => users entry.identity) entries := by
  refine UserIds.eq_of_same (Bool.eq_iff_iff.mpr ?_) fun user => Bool.eq_iff_iff.mpr ?_
  · rw [summed.isEveryone_iff, UserIds.isEveryone_unionOver]
    grind
  · rw [summed.contains_iff, UserIds.contains_unionOver]
    grind

end ObjectProjection

end BookingAccess
