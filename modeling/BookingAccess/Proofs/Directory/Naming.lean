/-
**Names of groups.**

A group is found by its name, so names should be distinct, and none should be that of the built-in
group. A group is created only under a name that is free and not built in. A group that is modified
takes whatever name it is given, so the names are as they should be exactly as long as no group is
modified to a name that is taken or built in.

* `Directory.WellNamed`: the names are as they should be; `GroupChange.Misnames`: a change that gives
  a name it should not;
* `Directory.WellNamed.outcome_iff`, `wellNamed_after_iff`: one change, one event;
* `wellNamed_iff_of_run`: a whole run;
* `misnamed_after_clashingEvents`: two calls that give one name to two groups.
-/

import BookingAccess.Proofs.Cache.Groups
import BookingAccess.Proofs.Service.GroupChange

namespace BookingAccess

open OrderedMap

/-! ### Names that are given -/

/-- No two groups have the same name, and none has that of the built-in group, in whatever
capitals. -/
structure Directory.WellNamed (directory : Directory) : Prop where
  apart : directory.NamedApart
  notBuiltIn : ∀ (id : GroupId) (group : Group), directory.groups[id]? = some group →
    Group.isEveryoneName group.name = false

/-- The name is that of the built-in group, or a group other than this one has it. -/
def Directory.IsTaken (directory : Directory) (id : GroupId) (name : String) : Prop :=
  Group.isEveryoneName name = true ∨
    ∃ (number : GroupId) (other : Group), directory.groups[number]? = some other ∧
      number ≠ id ∧ other.name = name

/-- A group is modified to have a name that it should not have. -/
def GroupChange.Misnames (directory : Directory) : GroupChange → Prop
  | .modify group => directory.IsTaken group.id group.name
  | _ => False

/-- The event is a change of a group that was made and that gives a name it should not. -/
def Occurrence.Misnames (occurrence : Occurrence) : Prop :=
  ∃ change, occurrence.Makes change ∧ change.Misnames occurrence.before.directory

namespace Directory.WellNamed

variable {directory changed : Directory} {id : GroupId} {group : Group}

theorem congr (named : directory.WellNamed) (same : changed.groups = directory.groups) :
    changed.WellNamed := by
  refine ⟨?_, ?_⟩
  · unfold NamedApart
    rw [same]
    exact named.apart
  · rw [same]
    exact named.notBuiltIn

/-- With one more group or another record of a group, the names are as they should be exactly if
its name is free. -/
theorem insert_iff (named : directory.WellNamed)
    (inserted : changed.groups = directory.groups.insert id group) :
    changed.WellNamed ↔ ¬ directory.IsTaken id group.name := by
  have lookup (number : GroupId) : changed.groups[number]? =
      if id = number then some group else directory.groups[number]? := by
    rw [inserted, lookup_insert]
  have here : changed.groups[id]? = some group := by rw [lookup, if_pos rfl]
  constructor
  · rintro later (builtIn | ⟨number, other, held, different, same⟩)
    · exact Bool.false_ne_true ((later.notBuiltIn id group here).symm.trans builtIn)
    · have kept : changed.groups[number]? = some other := by
        rw [lookup, if_neg different.symm, held]
      exact different (later.apart number id other group kept here same)
  · intro free
    have notBuiltIn : Group.isEveryoneName group.name = false :=
      Bool.eq_false_iff.mpr fun builtIn => free (.inl builtIn)
    have elsewhere {number : GroupId} {other : Group} (different : id ≠ number)
        (held : directory.groups[number]? = some other) : other.name ≠ group.name :=
      fun same => free (.inr ⟨number, other, held, different.symm, same⟩)
    refine ⟨fun first second one another held otherHeld same => ?_, fun number other held => ?_⟩
    · rw [lookup] at held otherHeld
      split at held
      · obtain rfl := Option.some.inj held
        split at otherHeld
        · exact (‹id = first›).symm.trans ‹id = second›
        · exact absurd same.symm (elsewhere ‹id ≠ second› otherHeld)
      · split at otherHeld
        · obtain rfl := Option.some.inj otherHeld
          exact absurd same (elsewhere ‹¬ id = first› held)
        · exact named.apart first second one another held otherHeld same
    · rw [lookup] at held
      split at held
      · exact Option.some.inj held ▸ notBuiltIn
      · exact named.notBuiltIn number other held

theorem erase (named : directory.WellNamed) (erased : changed.groups = directory.groups.erase id) :
    changed.WellNamed := by
  have kept {number : GroupId} {other : Group} (held : changed.groups[number]? = some other) :
      directory.groups[number]? = some other := by
    rw [erased, lookup_erase] at held
    split at held
    · exact nomatch held
    · exact held
  exact ⟨fun first second one another held otherHeld =>
      named.apart first second one another (kept held) (kept otherHeld),
    fun number other held => named.notBuiltIn number other (kept held)⟩

/-- **A change that is let through keeps the names as they should be, unless it misnames.** -/
theorem outcome_iff (named : directory.WellNamed) {change : GroupChange} (allowed : change.Allowed)
    (outcome : change.Outcome directory changed) :
    changed.WellNamed ↔ ¬ change.Misnames directory := by
  cases outcome with
  | create group free =>
    refine ⟨fun _ => not_false, fun _ => (named.insert_iff rfl).mpr ?_⟩
    rintro (builtIn | ⟨number, other, held, -, same⟩)
    · exact Bool.false_ne_true (allowed.symm.trans builtIn)
    · exact free number other held same
  | modify group _ => exact named.insert_iff rfl
  | delete id _ => exact ⟨fun _ => not_false, fun _ => named.erase rfl⟩
  | addUser | removeUser => exact ⟨fun _ => not_false, fun _ => named.congr rfl⟩

end Directory.WellNamed

/-! ### Runs -/

variable {rule : Occurrence → Prop} {start service : Service} {past : List Occurrence}

/-- An event keeps the names as they should be, unless it misnames. -/
theorem wellNamed_after_iff {occurrence : Occurrence}
    (named : occurrence.before.directory.WellNamed) :
    occurrence.after.directory.WellNamed ↔ ¬ occurrence.Misnames := by
  by_cases makes : ∃ change, occurrence.Makes change
  · obtain ⟨change, made⟩ := makes
    obtain ⟨allowed, outcome⟩ := made.outcome
    rw [named.outcome_iff allowed outcome]
    refine not_congr ⟨fun misnames => ⟨change, made, misnames⟩, ?_⟩
    rintro ⟨other, madeToo, misnames⟩
    exact made.eq madeToo ▸ misnames
  · rw [directory_after fun change made => makes ⟨change, made⟩]
    exact ⟨fun _ ⟨change, made, _⟩ => makes ⟨change, made⟩, fun _ => named⟩

/-- **In all the states of a run the groups have distinct names and none has that of the built-in
group, exactly if no group was modified to a name that was taken or built in.** Creating and deleting
groups never leads to a name that should not be, whatever else is called and whatever fails. -/
theorem wellNamed_iff_of_run (named : start.directory.WellNamed)
    (run : Run rule start past service) :
    (∀ occurrence ∈ past, occurrence.after.directory.WellNamed) ↔
      ∀ occurrence ∈ past, ¬ occurrence.Misnames := by
  suffices both : ((∀ occurrence ∈ past, occurrence.after.directory.WellNamed) ↔
      ∀ occurrence ∈ past, ¬ occurrence.Misnames) ∧
      ((∀ occurrence ∈ past, occurrence.after.directory.WellNamed) →
        service.directory.WellNamed) from both.1
  induction run with
  | start => exact ⟨by simp, fun _ => named⟩
  | @next past service event _ _ ih =>
    obtain ⟨earlier, reached⟩ := ih
    refine ⟨?_, fun all => all ⟨service, event⟩ (.head _)⟩
    simp only [List.mem_cons, forall_eq_or_imp]
    rw [← earlier]
    exact and_congr_left fun all => wellNamed_after_iff (reached all)

/-! ### Two runs -/

instance {directory : Directory} {id : GroupId} {name : String} :
    Decidable (directory.IsTaken id name) :=
  decidable_of_iff (Group.isEveryoneName name = true ∨
      ∃ filed ∈ directory.groups.toList, filed.1 ≠ id ∧ filed.2.name = name) <| by
    unfold Directory.IsTaken
    simp only [Prod.exists, Std.ExtTreeMap.mem_toList_iff_getElem?_eq_some]

instance {directory : Directory} {change : GroupChange} : Decidable (change.Misnames directory) :=
  match change with
  | .modify group => inferInstanceAs (Decidable (directory.IsTaken group.id group.name))
  | .create _ | .delete _ | .addUser .. | .removeUser .. => isFalse not_false

instance {occurrence : Occurrence} : Decidable occurrence.Misnames :=
  match called : occurrence.event with
  | .call (.regroup change) =>
    decidable_of_iff ((change.action.run.run occurrence.before).1 = .ok () ∧
        change.Misnames occurrence.before.directory) <| by
      refine ⟨fun ⟨succeeds, misnames⟩ => ⟨change, ⟨called, succeeds⟩, misnames⟩, ?_⟩
      rintro ⟨other, makes, misnames⟩
      obtain rfl : change = other := by
        have same := called.symm.trans makes.1
        injection same with same
        injection same
      exact ⟨makes.2, misnames⟩
  | .call (.ask _) | .call .clearCache | .call (.manage ..) | .outages _ | .graph _ =>
    isFalse fun ⟨_, makes, _⟩ => nomatch called.symm.trans makes.1

/-- There is no group yet. -/
theorem wellNamed_sample : Service.sample.directory.WellNamed where
  apart _ _ _ _ held := nomatch Std.ExtTreeMap.getElem?_empty.symm.trans held
  notBuiltIn _ _ held := nomatch Std.ExtTreeMap.getElem?_empty.symm.trans held

/-- Groups are created, one of them under a name that is taken and one under the built-in name; one
is renamed, and its old name is given to a new one. -/
def orderlyEvents : List Event := [
  .call (.regroup (.create { id := "", name := "staff" })),
  .call (.regroup (.create { id := "", name := "staff" })),
  .call (.regroup (.create { id := "", name := "Everyone" })),
  .call (.regroup (.modify { id := "1", name := "crew" })),
  .call (.regroup (.create { id := "", name := "staff" })),
  .call (.regroup (.delete "1"))]

theorem wellNamed_after_orderlyEvents :
    Service.sample.directory.WellNamed ∧
      ∀ occurrence ∈ (replay [] .sample orderlyEvents).1, occurrence.after.directory.WellNamed := by
  have run : Run (fun _ => True) .sample (replay [] .sample orderlyEvents).1
      (replay [] .sample orderlyEvents).2 := .ofEvents fun _ _ => trivial
  exact ⟨wellNamed_sample, (wellNamed_iff_of_run wellNamed_sample run).mpr (by decide +kernel)⟩

/-- A group is modified to have the name of another one, and then the built-in name. -/
def clashingEvents : List Event := [
  .call (.regroup (.create { id := "", name := "staff" })),
  .call (.regroup (.create { id := "", name := "crew" })),
  .call (.regroup (.modify { id := "2", name := "staff" }))]

/-- **Two groups have one name**, after three calls that all ended well. With a fourth one a group
has the built-in name. -/
theorem misnamed_after_clashingEvents :
    Service.sample.directory.WellNamed ∧
      ¬ (replay [] .sample clashingEvents).2.directory.NamedApart ∧
      ((replay [] .sample (clashingEvents ++
        [.call (.regroup (.modify { id := "1", name := "Everyone" }))])).2.directory.groups["1"]?.map
          fun group => Group.isEveryoneName group.name) = some true := by
  refine ⟨wellNamed_sample, fun apart => ?_, by decide +kernel⟩
  have first : (replay [] .sample clashingEvents).2.directory.groups["1"]? =
      some { id := "1", name := "staff" } := by decide +kernel
  have second : (replay [] .sample clashingEvents).2.directory.groups["2"]? =
      some { id := "2", name := "staff" } := by decide +kernel
  exact nomatch (apart "1" "2" _ _ first second rfl : ("1" : GroupId) = "2")

end BookingAccess
