/-
**What a policy is told of groups.**

Before a policy is evaluated, the service resolves the groups that it mentions, and no others. What
it is told of a group is settled beforehand by the cache and the directory, and resolving another
group first does not change it.

* `Service.membersNamed`: what is told of a group; `ResolvesAlike`: calls that do not change it;
* `finds_policyGroups`: what is told of several groups, one after another;
* `finds_evaluateFor`: the verdict when the groups that matter are told as they are;
* `verdict_by_mentioned_groups`: the verdict is the same, whatever else is resolved.
-/

import BookingAccess.Proofs.Cache.Groups
import BookingAccess.Proofs.Expression.Evaluation
import BookingAccess.Proofs.Service.Reaching
import BookingAccess.Service.SystemAccess

namespace BookingAccess

open Service OrderedMap

/-! ### What is told of groups -/

namespace Service

/-- The number that a group is known by, from the cache or else from the directory. -/
def groupNumber? (service : Service) (name : String) : Option GroupId :=
  if name = everyoneGroupName then some everyoneGroupId
  else service.cache.groupIdOfName[name]?.or (service.directory.groupIdOfName name).toOption

/-- The members of a group, from the cache or else from the directory. -/
def membersOf (service : Service) (group : GroupId) : Except DirectoryError UserIds :=
  if group = everyoneGroupId then .ok .everyone
  else match service.cache.groupMembers[group]? with
    | some members => .ok members
    | none => (service.directory.groupMembers group).map .only

/-- The members of the group with this name; a group that is not known has none. -/
def membersNamed (service : Service) (name : String) : Except DirectoryError UserIds :=
  match service.groupNumber? name with
  | some group => service.membersOf group
  | none => .ok .empty

/-- The list tells of each of these names, and of no other one. -/
structure Resolves (service : Service) (names : List String) (groups : List (String × UserIds)) :
    Prop where
  told : ∀ name ∈ names, ∃ members, groups.lookup name = some members ∧
    service.membersNamed name = .ok members
  untold : ∀ name, name ∉ names → groups.lookup name = none

end Service

/-- The same is told of every group afterwards. -/
structure ResolvesAlike (before after : Service) : Prop where
  numbers : ∀ name, after.groupNumber? name = before.groupNumber? name
  members : ∀ group, after.membersOf group = before.membersOf group

variable {α : Type} {service before after : Service} {name : String} {group : GroupId}

/-- What is told covers every group that matters, if the names do that are known. -/
theorem Service.Resolves.membersNamed_eq {names : List String} {groups : List (String × UserIds)}
    (resolves : service.Resolves names groups)
    (covered : (service.groupNumber? name).isSome = true → name ∈ names) :
    service.membersNamed name = .ok ((groups.lookup name).getD .empty) := by
  by_cases listed : name ∈ names
  · obtain ⟨members, found, told⟩ := resolves.told name listed
    rw [found, told]
    rfl
  · have unknown : service.groupNumber? name = none :=
      Option.not_isSome_iff_eq_none.mp fun known => listed (covered known)
    rw [membersNamed, unknown, resolves.untold name listed]
    rfl

namespace ResolvesAlike

instance : IsPreorder Service ResolvesAlike where
  refl _ := ⟨fun _ => rfl, fun _ => rfl⟩
  trans _ _ _ first second :=
    ⟨fun name => (second.numbers name).trans (first.numbers name),
      fun group => (second.members group).trans (first.members group)⟩

theorem membersNamed (alike : ResolvesAlike before after) (name : String) :
    after.membersNamed name = before.membersNamed name := by
  unfold Service.membersNamed
  rw [alike.numbers]
  split
  · exact alike.members _
  · rfl

theorem resolves {names : List String} {groups : List (String × UserIds)}
    (alike : ResolvesAlike before after) (resolves : after.Resolves names groups) :
    before.Resolves names groups where
  told name listed := alike.membersNamed name ▸ resolves.told name listed
  untold := resolves.untold

theorem ofSame (directory : after.directory = before.directory)
    (cache : after.cache = before.cache) : ResolvesAlike before after where
  numbers name := by unfold groupNumber?; rw [cache, directory]
  members group := by unfold membersOf; rw [cache, directory]

/-- The number of a group is remembered as the directory has told it. -/
theorem putName (uncached : service.cache.groupIdOfName[name]? = none)
    (told : service.directory.groupIdOfName name = .ok group) :
    ResolvesAlike service
      { service with cache := service.cache.putGroupIdOfName name group } where
  numbers other := by
    show (if other = everyoneGroupName then some everyoneGroupId else
      (service.cache.groupIdOfName.insert name group)[other]?.or _) = _
    unfold groupNumber?
    rw [lookup_insert]
    by_cases same : name = other
    · subst same
      rw [if_pos rfl, uncached, told]
      rfl
    · rw [if_neg same]
  members _ := rfl

/-- The members of a group are remembered as the directory has told them. -/
theorem putMembers {users : Std.ExtTreeSet UserId}
    (uncached : service.cache.groupMembers[group]? = none)
    (told : service.directory.groupMembers group = .ok users) :
    ResolvesAlike service
      { service with cache := service.cache.putGroupMembers group (.only users) } where
  numbers _ := rfl
  members other := by
    show (if other = everyoneGroupId then _ else
      match (service.cache.groupMembers.insert group (.only users))[other]? with
      | some members => _
      | none => _) = _
    unfold membersOf
    rw [lookup_insert]
    by_cases same : group = other
    · subst same
      rw [if_pos rfl, uncached, told]
      rfl
    · rw [if_neg same]

end ResolvesAlike

/-! ### Resolving groups -/

/-- The call answers with what is told, or it fails because that is a fault or because of an outage.
In any case the same is told of every group afterwards. -/
def Finds (action : Action α) (service : Service) (told : α → Prop) (refused : Prop) : Prop :=
  Ensures action service (fun value after => ResolvesAlike service after ∧ told value)
    fun fault after => ResolvesAlike service after ∧ (refused ∨ fault.isOutage = true)

theorem ensures_groupNumber (name : String) :
    Ensures (groupIdByName name) service
      (fun group after => ResolvesAlike service after ∧ service.groupNumber? name = some group)
      (fun fault after => ResolvesAlike service after ∧
        ((service.groupNumber? name = none ∧ ∃ missing, fault = .groupNotFound missing) ∨
          fault.isOutage = true)) := by
  unfold groupIdByName groupNumber?
  by_cases builtIn : name = everyoneGroupName
  · rw [if_pos (beq_iff_eq.mpr builtIn), if_pos builtIn]
    exact ⟨refl service, rfl⟩
  rw [if_neg (mt beq_iff_eq.mp builtIn), if_neg builtIn]
  simp only [ensures_bind, ensures_get]
  cases cached : service.cache.groupIdOfName[name]? with
  | some group => exact ⟨refl service, rfl⟩
  | none =>
    simp only [ensures_bind, ensures_ofDirectory, ensures_modifyCache, ensures_pure]
    refine (ensures_lookup _ _).mono ?_ ?_
    · rintro group later ⟨asked, cache, directory⟩
      have same : ResolvesAlike service later := .ofSame directory cache
      refine ⟨IsTrans.trans _ _ _ same (.putName (cache ▸ cached) (directory ▸ asked)), ?_⟩
      rw [asked]
      rfl
    · rintro fault later ⟨failed, cache, directory⟩
      refine ⟨.ofSame directory cache, ?_⟩
      rcases failed with asked | outage
      · refine .inl ⟨by rw [asked]; rfl, name, ?_⟩
        unfold Directory.groupIdOfName at asked
        split at asked
        · cases asked
        · exact Except.error.inj asked ▸ rfl
      · exact .inr (AccessError.isOutage_ofDirectory outage)

theorem finds_groupMembers (group : GroupId) :
    Finds (groupMembers group) service (service.membersOf group = .ok ·)
      (∃ cause, service.membersOf group = .error cause) := by
  unfold Finds groupMembers membersOf rememberedGroupMembers remembered
  by_cases builtIn : group = everyoneGroupId
  · rw [if_pos (beq_iff_eq.mpr builtIn)]
    exact ⟨refl service, if_pos builtIn⟩
  rw [if_neg (mt beq_iff_eq.mp builtIn)]
  simp only [builtIn, if_false, ensures_bind, ensures_get]
  cases cached : service.cache.groupMembers[group]? with
  | some members => exact ⟨refl service, rfl⟩
  | none =>
    simp only [ensures_bind, ensures_ofDirectory, ensures_modifyCache, ensures_pure]
    refine (ensures_lookup _ _).mono ?_ ?_
    · rintro users later ⟨asked, cache, directory⟩
      have same : ResolvesAlike service later := .ofSame directory cache
      refine ⟨IsTrans.trans _ _ _ same (.putMembers (cache ▸ cached) (directory ▸ asked)), ?_⟩
      rw [asked]
      rfl
    · rintro fault later ⟨failed, cache, directory⟩
      refine ⟨.ofSame directory cache, ?_⟩
      rcases failed with asked | outage
      · exact .inl ⟨fault, by rw [asked]; rfl⟩
      · exact .inr (AccessError.isOutage_ofDirectory outage)

theorem finds_policyGroup (name : String) :
    Finds (policyGroup name) service (service.membersNamed name = .ok ·)
      (∃ cause, service.membersNamed name = .error cause) := by
  unfold Finds policyGroup
  simp only [ensures_bind, ensures_tryCatch, ensures_map]
  refine (ensures_groupNumber name).mono ?_ ?_
  · rintro group later ⟨alike, number⟩
    have told : service.membersNamed name = later.membersOf group := by
      rw [Service.membersNamed, number]
      exact (alike.members group).symm
    rw [told]
    refine Ensures.mono (finds_groupMembers group) ?_ ?_
    · exact fun _ _ => And.imp_left (IsTrans.trans _ _ _ alike)
    · exact fun _ _ => And.imp_left (IsTrans.trans _ _ _ alike)
  · rintro fault later ⟨alike, ⟨unknown, missing, rfl⟩ | outage⟩
    · have told : service.membersNamed name = .ok .empty := by rw [Service.membersNamed, unknown]
      simp only [ensures_pure, ensures_bind, ensures_record]
      refine ⟨IsTrans.trans _ _ _ alike ?_, told⟩
      exact .ofSame rfl rfl
    · split
      · exact Bool.noConfusion outage
      · exact ensures_throw.mpr ⟨alike, .inr outage⟩

/-- **Groups are resolved one after another, and each is told as it is at the start.** -/
theorem finds_policyGroups (names : List String) :
    Finds (policyGroups names) service (service.Resolves names ·)
      (∃ name ∈ names, ∃ cause, service.membersNamed name = .error cause) := by
  induction names generalizing service with
  | nil => exact ⟨refl service, ⟨fun _ absent => absurd absent List.not_mem_nil, fun _ _ => rfl⟩⟩
  | cons name names ih =>
    unfold Finds policyGroups
    simp only [ensures_bind, ensures_pure]
    refine Ensures.mono (finds_policyGroup name) ?_ ?_
    · rintro members later ⟨alike, first⟩
      refine Ensures.mono ih ?_ ?_
      · rintro groups last ⟨alikeAfter, others⟩
        refine ⟨IsTrans.trans _ _ _ alike alikeAfter, fun other listed => ?_,
          fun other unlisted => ?_⟩
        · rw [List.lookup_cons]
          by_cases same : other = name
          · subst same
            exact ⟨members, by simp, first⟩
          · rw [beq_eq_false_iff_ne.mpr same]
            exact (alike.resolves others).told other (List.mem_of_ne_of_mem same listed)
        · rw [List.mem_cons, not_or] at unlisted
          rw [List.lookup_cons, beq_eq_false_iff_ne.mpr unlisted.1]
          exact others.untold other unlisted.2
      · rintro fault last ⟨alikeAfter, failed⟩
        refine ⟨IsTrans.trans _ _ _ alike alikeAfter, failed.imp_left ?_⟩
        rintro ⟨other, listed, cause, told⟩
        exact ⟨other, .tail _ listed, cause, alike.membersNamed other ▸ told⟩
    · rintro fault later ⟨alike, failed⟩
      refine ⟨alike, failed.imp_left ?_⟩
      rintro ⟨cause, told⟩
      exact ⟨name, .head _, cause, told⟩

/-! Nothing but an outage keeps a group from being resolved, apart from what is told of it. -/

theorem reaches_policyGroups (names : List String) :
    Reaches AccessError.isOutage (policyGroups names) := by
  induction names with
  | nil => exact .pure
  | cons name names ih =>
    refine .bind ?_ fun _ => .bind ih fun _ => .pure
    unfold policyGroup
    refine .bind (.tryCatch (.bind (reaches_groupIdByName name) fun _ => .pure) ?_) fun found => ?_
    · intro fault known
      split
      · exact .pure
      · exact .throw known
    · split
      · exact reaches_groupMembers _
      · exact .bind .record fun _ => .pure

theorem reaches_evaluateFor (policy : Policy) (user : User) (assurance : Assurance) :
    Reaches AccessError.isOutage (evaluateFor policy user assurance) := by
  unfold evaluateFor
  refine .bind (reaches_policyGroups _) fun groups => ?_
  split
  · exact .pure
  · exact .throw rfl

/-! ### Verdicts -/

variable {policy : Policy} {user : User} {assurance : Assurance} {attributes : Attributes}
  {groups groups' : String → UserIds}

/-- Only the groups that a policy mentions matter. -/
theorem Policy.holds_congr (same : ∀ name ∈ policy.groupNames, groups name = groups' name) :
    policy.holds attributes groups = policy.holds attributes groups' := by
  unfold holds
  cases found : policy.expression with
  | none => rfl
  | some tree =>
    have agree : ∀ name ∈ tree.groupReferences, groups name = groups' name := by
      intro name mentioned
      refine same name ?_
      rw [groupNames, found, Std.ExtTreeSet.mem_ofList]
      exact List.contains_iff_mem.mpr mentioned
    simp only [Expression.eval_congr agree]

/-- When each group is told as it is, the answer is the verdict. -/
theorem finds_evaluateFor
    (told : ∀ name ∈ policy.groupNames, service.membersNamed name = .ok (groups name)) :
    Ensures (evaluateFor policy user assurance) service
      (fun verdict _ => policy.holds (user.attributes assurance) groups = .ok verdict)
      (fun fault _ => (∃ cause, policy.holds (user.attributes assurance) groups = .error cause ∧
        fault = .expression cause) ∨ fault.isOutage = true) := by
  unfold evaluateFor
  simp only [ensures_bind]
  refine Ensures.mono (finds_policyGroups _) ?_ ?_
  · rintro found _ ⟨-, resolves⟩
    have same : policy.holds (user.attributes assurance)
        (fun name => (found.lookup name).getD .empty) =
          policy.holds (user.attributes assurance) groups := by
      refine Policy.holds_congr fun name mentioned => ?_
      have listed : name ∈ policy.groupNames.toList := Std.ExtTreeSet.mem_toList.mpr mentioned
      have resolved := resolves.membersNamed_eq fun _ => listed
      exact Except.ok.inj (resolved.symm.trans (told name mentioned))
    rw [same]
    cases policy.holds (user.attributes assurance) groups with
    | ok verdict => exact rfl
    | error cause => exact .inl ⟨cause, rfl, rfl⟩
  · rintro fault _ ⟨-, ⟨name, listed, cause, failed⟩ | outage⟩
    · rw [told name (Std.ExtTreeSet.mem_toList.mp listed)] at failed
      cases failed
    · exact .inr outage

theorem gives_evaluateFor
    (told : ∀ name ∈ policy.groupNames, service.membersNamed name = .ok (groups name)) :
    (evaluateFor policy user assurance).Gives service
      ((policy.holds (user.attributes assurance) groups).mapError .expression) := by
  refine .ofEnsures (reaches_evaluateFor policy user assurance)
    ((finds_evaluateFor told).mono ?_ ?_)
  · intro verdict _ holds
    rw [holds]
    rfl
  · rintro fault _ (⟨cause, fails, rfl⟩ | outage)
    · rw [fails]
      exact .inl rfl
    · exact .inr outage

/-- **A verdict depends on no group but those that the policy mentions.** Whatever the members of
other groups are, the policy holds alike or fails with the same fault. So it is enough to resolve
the groups that it mentions: whichever groups are resolved in their place, among them those that are
mentioned and known, these make the policy come to the answer that the service gives, unless a
collaborator cannot be reached. -/
theorem verdict_by_mentioned_groups (policy : Policy) :
    (∀ attributes (groups groups' : String → UserIds),
      (∀ name ∈ policy.groupNames, groups name = groups' name) →
        policy.holds attributes groups = policy.holds attributes groups') ∧
    ∀ (service after : Service) (names : List String) (groups : List (String × UserIds)) user
      assurance,
      (∀ name ∈ policy.groupNames, (service.groupNumber? name).isSome = true → name ∈ names) →
      (policyGroups names).run.run service = (.ok groups, after) →
        (evaluateFor policy user assurance).Gives service
          ((policy.holds (user.attributes assurance) fun name =>
            (groups.lookup name).getD .empty).mapError .expression) := by
  refine ⟨fun _ _ _ => Policy.holds_congr, ?_⟩
  intro service after names groups user assurance covered resolved
  have finds : Ensures (policyGroups names) service _ _ := finds_policyGroups names
  obtain ⟨-, resolves⟩ := finds.of_ok resolved
  exact gives_evaluateFor fun name mentioned => resolves.membersNamed_eq (covered name mentioned)

/-- A policy that mentions two groups of the directory and one that there is not. Of a guest it asks
for the truth of an organization, and that is neither true nor false. -/
def Policy.staffOrGuests : Policy where
  source := "id in group('staff') or id in group('hosts') or " ++
    "id in group('guests') and not organization"
  expression := some (.disjunction [.comparison .member (.property "id") (.group "staff"),
    .comparison .member (.property "id") (.group "hosts"),
    .conjunction [.comparison .member (.property "id") (.group "guests"),
      .negation (.property "organization")]])

/-- The sample service with three groups. -/
def Service.staffed : Service := { Service.sample with
  directory := Service.sample.directory
    |>.addGroup { id := "5", name := "staff" } ["1"]
    |>.addGroup { id := "6", name := "crew" } []
    |>.addGroup { id := "7", name := "guests" } ["2"] }

/-- Resolving all groups that there are gives the verdicts that the service gives: on a member of
the staff, on a guest and on somebody else. The crew does not matter to them, the staff does. -/
theorem verdict_by_mentioned_groups_staffed :
    (∃ after, (policyGroups ["crew", everyoneGroupName, "guests", "staff"]).run.run .staffed =
      (.ok [("crew", .empty), (everyoneGroupName, .everyone), ("guests", .single "2"),
        ("staff", .single "1")], after)) ∧
    ((evaluateFor .staffOrGuests { id := "1" } {}).run.run .staffed).1 = .ok true ∧
    ((evaluateFor .staffOrGuests { id := "2" } {}).run.run .staffed).1 =
      .error (.expression (.typeMismatch .negation .null .boolean)) ∧
    ((evaluateFor .staffOrGuests { id := "3" } {}).run.run .staffed).1 = .ok false ∧
    Policy.staffOrGuests.holds { id := some "1" } (fun _ => .empty) = .ok false ∧
    (Policy.staffOrGuests.holds { id := some "1" } fun name =>
      if name = "crew" then .everyone else .empty) = .ok false ∧
    (Policy.staffOrGuests.holds { id := some "1" } fun name =>
      if name = "staff" then .everyone else .empty) = .ok true := by
  obtain ⟨alike, gives⟩ := verdict_by_mentioned_groups .staffOrGuests
  have mentioned {name : String} (member : name ∈ Policy.staffOrGuests.groupNames) :
      name ∈ ["guests", "hosts", "staff"] := by
    have listed : Policy.staffOrGuests.groupNames.toList = ["guests", "hosts", "staff"] := by
      decide +kernel
    exact listed ▸ Std.ExtTreeSet.mem_toList.mpr member
  have told : ((policyGroups ["crew", everyoneGroupName, "guests", "staff"]).run.run
      .staffed).1 = .ok [("crew", .empty), (everyoneGroupName, .everyone), ("guests", .single "2"),
        ("staff", .single "1")] := ok_of_toOption (by decide +kernel)
  rcases resolved : (policyGroups ["crew", everyoneGroupName, "guests", "staff"]).run.run
    .staffed with ⟨groups, after⟩
  rw [resolved] at told
  subst told
  have covered : ∀ name ∈ ["guests", "hosts", "staff"],
      (Service.staffed.groupNumber? name).isSome = true →
        name ∈ ["crew", everyoneGroupName, "guests", "staff"] := by decide +kernel
  have given (user : User) := gives .staffed after _ _ user {}
    (fun name member => covered name (mentioned member)) resolved
  have reached : Service.staffed.outages = .none := rfl
  have answer (user : User) := (given user).answer reached
  have nobody : Policy.staffOrGuests.holds { id := some "1" } (fun _ => .empty) = .ok false :=
    ok_of_toOption (by decide +kernel)
  refine ⟨⟨after, rfl⟩, ?_, ?_, ?_, nobody, (alike _ _ _ fun name member => ?_).trans nobody,
    ok_of_toOption (by decide +kernel)⟩
  · exact (answer { id := "1" }).trans (ok_of_toOption (by decide +kernel))
  · exact (answer { id := "2" }).trans (error_of_fault (by decide +kernel))
  · exact (answer { id := "3" }).trans (ok_of_toOption (by decide +kernel))
  · have other : name ≠ "crew" := fun same => absurd (mentioned (same ▸ member)) (by decide)
    rw [if_neg other]

end BookingAccess
