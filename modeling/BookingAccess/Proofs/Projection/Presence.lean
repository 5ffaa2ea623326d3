/-
**An object projection is what its present entries give.**

An entry that comes under a free number is present, with the users that came along, until its
number is taken away; entries that come under a taken number change nothing. So what is present
under a number is the first call that brought something under it since the number was last taken
away. Users are merged into a role as entries come and gathered anew as they go; both ways lead to
the union over the entries that are present.

* `present`: what is present under a number, and `present_concat`: how one more call changes it;
* `lookup_updated`: the projection keeps what is present;
* `usersWithRole_updated`: what a projection answers after any calls.
-/

import BookingAccess.Proofs.Projection.Object
import Mathlib.Data.Finset.Card
import Mathlib.Data.List.DropRight

namespace BookingAccess.ObjectProjection

open OrderedMap

variable {projection : ObjectProjection} {updates : List Update} {id : EntryId}

/-! ### Updates -/

/-- A call that brings an entry with its users, or takes an entry away. -/
inductive Update
  | add (entry : Entry) (users : UserIds)
  | remove (entry : Entry)
deriving DecidableEq

namespace Update

def entry : Update → Entry
  | .add entry _ => entry
  | .remove entry => entry

/-- What the call brings. -/
def brings? : Update → Option ResolvedEntry
  | .add entry users => some ⟨entry, users⟩
  | .remove _ => none

/-- What the call answers, and the projection after it. -/
def apply (update : Update) (projection : ObjectProjection) : Bool × ObjectProjection :=
  match update with
  | .add entry users => projection.add entry users
  | .remove entry => projection.remove entry

end Update

/-- The projection after these calls, from an empty one. -/
def updated (updates : List Update) : ObjectProjection :=
  updates.foldl (fun projection update => (update.apply projection).2) empty

theorem updated_concat (updates : List Update) (update : Update) :
    updated (updates ++ [update]) = (update.apply (updated updates)).2 := by
  simp [updated]

/-! ### Present entries -/

/-- The calls with this number since it was last taken away. -/
def sinceRemoval (updates : List Update) (id : EntryId) : List Update :=
  (updates.filter fun update => update.entry.id = id).rtakeWhile fun update =>
    update.brings?.isSome

/-- What is present under a number: what the first call brought since it was last taken away. -/
def present (updates : List Update) (id : EntryId) : Option ResolvedEntry :=
  (sinceRemoval updates id).head?.bind Update.brings?

/-- The numbers under which something is present. -/
def presentIds (updates : List Update) : Finset EntryId :=
  (updates.map (·.entry.id)).toFinset.filter fun id => (present updates id).isSome

theorem sinceRemoval_concat (updates : List Update) (update : Update) (id : EntryId) :
    sinceRemoval (updates ++ [update]) id =
      if update.entry.id = id then
        if update.brings?.isSome then sinceRemoval updates id ++ [update] else []
      else sinceRemoval updates id := by
  unfold sinceRemoval
  by_cases same : update.entry.id = id <;> simp [same, List.rtakeWhile_concat]

/-- Every call since the last removal brought something. -/
theorem brings_of_mem_sinceRemoval {update : Update} (called : update ∈ sinceRemoval updates id) :
    update ∈ updates ∧ update.entry.id = id ∧ update.brings?.isSome = true := by
  have brings := List.mem_rtakeWhile_imp called
  have filtered := (List.rtakeWhile_suffix _ _).subset called
  rw [List.mem_filter, decide_eq_true_eq] at filtered
  exact ⟨filtered.1, filtered.2, brings⟩

/-- A call brings something only under a number that is free, and a removal always frees it. -/
theorem present_concat (updates : List Update) (update : Update) (id : EntryId) :
    present (updates ++ [update]) id =
      if update.entry.id = id then
        update.brings?.map fun brought => (present updates id).getD brought
      else present updates id := by
  unfold present
  rw [sinceRemoval_concat]
  by_cases same : update.entry.id = id
  · rw [if_pos same, if_pos same]
    cases brought : update.brings? with
    | none => rfl
    | some holder =>
      cases earlier : sinceRemoval updates id with
      | nil => simp [brought]
      | cons first rest =>
        have brings := (brings_of_mem_sinceRemoval (earlier ▸ List.mem_cons_self)).2.2
        obtain ⟨value, brings⟩ := Option.isSome_iff_exists.mp brings
        simp [brings]
  · rw [if_neg same, if_neg same]

/-- What is present under a number came with a call under this number. -/
theorem exists_call_of_present {holder : ResolvedEntry} (found : present updates id = some holder) :
    ∃ update ∈ updates, update.entry.id = id ∧ update.brings? = some holder := by
  obtain ⟨update, first, brings⟩ := Option.bind_eq_some_iff.mp found
  have called := brings_of_mem_sinceRemoval (List.mem_of_head? first)
  exact ⟨update, called.1, called.2.1, brings⟩

theorem mem_presentIds_iff : id ∈ presentIds updates ↔ (present updates id).isSome = true := by
  rw [presentIds, Finset.mem_filter, and_iff_right_iff_imp]
  intro found
  obtain ⟨holder, found⟩ := Option.isSome_iff_exists.mp found
  obtain ⟨update, called, sameId, -⟩ := exists_call_of_present found
  exact List.mem_toFinset.mpr (List.mem_map.mpr ⟨update, called, sameId⟩)

/-! ### What the projection keeps -/

theorem lookup_apply (update : Update) (id : EntryId) :
    (update.apply projection).2.entries[id]? =
      if update.entry.id = id then
        update.brings?.map fun brought => (projection.entries[id]?).getD brought
      else projection.entries[id]? := by
  cases update with
  | add entry users => exact lookup_add entry users id
  | remove entry => exact lookup_remove entry id

/-- **The projection keeps what is present.** -/
theorem lookup_updated (updates : List Update) (id : EntryId) :
    (updated updates).entries[id]? = present updates id := by
  induction updates using List.reverseRecOn with
  | nil => simp [updated, empty, present, sinceRemoval]
  | append_singleton updates update ih =>
    rw [updated_concat, lookup_apply, present_concat, ih]

theorem summed_updated (updates : List Update) : Summed (updated updates) := by
  induction updates using List.reverseRecOn with
  | nil => exact summed_empty
  | append_singleton updates update ih =>
    rw [updated_concat]
    cases update with
    | add entry users => exact ih.add entry users
    | remove entry => exact ih.remove entry

/-- A call answers that it was a change exactly when it changes what is present. -/
theorem answer_iff_change (updates : List Update) (update : Update) :
    (update.apply (updated updates)).1 = true ↔
      present (updates ++ [update]) ≠ present updates := by
  have kept := lookup_updated updates update.entry.id
  have changed : present (updates ++ [update]) ≠ present updates ↔
      (update.brings?.map fun brought => (present updates update.entry.id).getD brought) ≠
        present updates update.entry.id := by
    rw [Ne, funext_iff, not_iff_not]
    constructor
    · intro same
      have here := same update.entry.id
      rw [present_concat, if_pos rfl] at here
      exact here
    · intro same id
      rw [present_concat]
      split
      next here => rw [← here, same]
      next => rfl
  rw [changed]
  cases update with
  | add entry users =>
    show ((updated updates).add entry users).1 = true ↔ _
    rw [add, Std.ExtTreeMap.contains_eq_isSome_getElem?]
    cases found : present updates entry.id <;> simp_all [Update.entry, Update.brings?]
  | remove entry =>
    show ((updated updates).remove entry).1 = true ↔ _
    rw [remove]
    cases found : present updates entry.id <;> simp_all [Update.entry, Update.brings?]

/-! ### Answers -/

/-- The projection answers as the entries say that are present after the calls. -/
structure Answers (updates : List Update) (projection : ObjectProjection) : Prop where
  usersWithRole_of_everyone : ∀ role,
    (∃ id holder, present updates id = some holder ∧ holder.entry.role = role ∧
      holder.users = .everyone) → projection.usersWithRole role = .everyone
  usersWithRole_of_only : ∀ role,
    (∀ id holder, present updates id = some holder → holder.entry.role = role →
      holder.users ≠ .everyone) →
    ∃ ids, projection.usersWithRole role = .only ids ∧ ∀ user, user ∈ ids ↔
      ∃ id holder, present updates id = some holder ∧ holder.entry.role = role ∧
        holder.users.contains user = true
  mem_entryList_iff : ∀ entry, entry ∈ projection.entryList ↔
    ∃ id holder, present updates id = some holder ∧ holder.entry = entry
  nodup_entryList : projection.entryList.Nodup
  entryCount_eq : projection.entryCount = (presentIds updates).card

theorem nodup_entryList_updated (updates : List Update) : (updated updates).entryList.Nodup := by
  have numbered {id : EntryId} {holder : ResolvedEntry} :
      (updated updates).entries[id]? = some holder → holder.entry.id = id :=
    (summed_updated updates).numbered
  have once : (updated updates).entries.values.Nodup :=
    nodup_values fun found foundToo => (numbered found).symm.trans (numbered foundToo)
  refine List.Nodup.map_on (fun first listed second listedToo sameEntry => ?_) once
  obtain ⟨id, found⟩ := mem_values_iff.mp listed
  obtain ⟨other, foundToo⟩ := mem_values_iff.mp listedToo
  obtain rfl : id = other := by rw [← numbered found, ← numbered foundToo, sameEntry]
  exact Option.some.inj (found.symm.trans foundToo)

theorem entryCount_updated (updates : List Update) :
    (updated updates).entryCount = (presentIds updates).card := by
  have listed : (updated updates).entries.keys.toFinset = presentIds updates := by
    ext id
    rw [List.mem_toFinset, mem_presentIds_iff, Std.ExtTreeMap.mem_keys,
      Std.ExtTreeMap.mem_iff_isSome_getElem?, lookup_updated]
  rw [entryCount, ← Std.ExtTreeMap.length_keys, ← listed,
    List.toFinset_card_of_nodup Std.ExtTreeMap.nodup_keys]

/-- **An object projection says what the present entries say.** After any calls, everyone holds a
role that an entry gives to everyone, and otherwise the holders are the union over the entries with
that role. The entries are those that are present, and a call answers that it was a change exactly
when it changed what is present. -/
theorem usersWithRole_updated (updates : List Update) :
    Answers updates (updated updates) ∧
    ∀ update : Update, (update.apply (updated updates)).1 = true ↔
      present (updates ++ [update]) ≠ present updates := by
  have everyone (role : Role) : (updated updates).usersWithRole role = .everyone ↔
      ∃ id holder, present updates id = some holder ∧ holder.entry.role = role ∧
        holder.users = .everyone := by
    simpa only [UserIds.isEveryone_iff, lookup_updated] using
      (summed_updated updates).isEveryone_iff role
  have members (role : Role) (user : UserId) :
      ((updated updates).usersWithRole role).contains user = true ↔
        ∃ id holder, present updates id = some holder ∧ holder.entry.role = role ∧
          holder.users.contains user = true := by
    simpa only [lookup_updated] using (summed_updated updates).contains_iff role user
  refine ⟨⟨fun role => (everyone role).mpr, fun role finite => ?_, fun entry => ?_,
    nodup_entryList_updated updates, entryCount_updated updates⟩, answer_iff_change updates⟩
  · cases found : (updated updates).usersWithRole role with
    | everyone =>
      obtain ⟨id, holder, kept, hasRole, all⟩ := (everyone role).mp found
      exact absurd all (finite id holder kept hasRole)
    | only ids =>
      refine ⟨ids, rfl, fun user => ?_⟩
      rw [← members role user, found]
      exact Std.ExtTreeSet.contains_iff_mem.symm
  · rw [entryList, List.mem_map]
    simp only [mem_values_iff, lookup_updated]
    grind

end BookingAccess.ObjectProjection
