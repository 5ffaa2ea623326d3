/-
**Checks and listings agree.**

A caller may be checked on one object, for a role or for a permission, may ask for all objects of a
class at once, or for all permissions on an object. Each of these calls goes by the mode of the
caller, by whether the caller is root, and then by another part of the projection of the user: the
holding on the object, a listing, a scan, or the set of permissions. They come to the same.

* `entitlement`: what all of them ask first, and `hasRole_eq`, `objectsWithRole_eq` and so on: each
  call as what it makes of that;
* `Service.Filed`, `Filed.run`: the projections that are in the cache are filed, whatever happens;
* `checks_agree_of_run`: so checks and listings agree in every state, also in how they fail.
-/

import BookingAccess.Proofs.Answers.Inquiry
import BookingAccess.Proofs.Replay
import BookingAccess.Proofs.Service.GroupChange

namespace BookingAccess

open Service UserProjection

variable {service : Service} {token : AccessToken}

/-! ### What a call asks first -/

namespace Service

/-- The projection of the caller; root needs none. -/
def heldBy (token : AccessToken) : Action (Option UserProjection) := do
  let user ← userId token
  if user == rootUserId then return none
  return some (← userProjection user)

/-- The projection that the caller has to go by, or none, where everything is allowed: to root, and
where the mode of the caller suffices. -/
def entitlement (token : AccessToken) (reading : Bool) : Action (Option UserProjection) := do
  if ← modeSuffices token reading then return none
  heldBy token

/-- Does the mode of the caller settle it? -/
def settles (service : Service) (token : AccessToken) (reading : Bool) : Bool :=
  service.modes[token]? == some .administrator || reading && service.modes[token]?.isSome

theorem run_modeSuffices (reading : Bool) :
    (modeSuffices token reading).run.run service =
      (.ok (service.settles token reading), service) := by
  have asked : (isAdministrator token).run.run service =
      (.ok (service.modes[token]? == some .administrator), service) := rfl
  unfold modeSuffices settles
  rw [ExceptT.run_bind, StateT.run_bind, asked]
  cases service.modes[token]? == some .administrator with
  | true => rfl
  | false => cases reading <;> rfl

theorem run_entitlement (reading : Bool) : (entitlement token reading).run.run service =
    if service.settles token reading then (.ok none, service)
    else (heldBy token).run.run service := by
  unfold entitlement
  rw [ExceptT.run_bind, StateT.run_bind, run_modeSuffices]
  cases service.settles token reading <;> rfl

/-! ### What a call makes of it -/

/-- What is made of the projection, step by step. -/
theorem map_entitlement {α : Type} (answer : Option UserProjection → α) (reading : Bool) :
    answer <$> entitlement token reading = do
      if ← modeSuffices token reading then return answer none
      let user ← userId token
      if user == rootUserId then return answer none
      return answer (some (← userProjection user)) := by
  unfold entitlement heldBy
  rw [map_bind]
  refine bind_congr fun settled => ?_
  cases settled with
  | true => simp
  | false =>
    simp only [Bool.false_eq_true, if_false, map_bind]
    refine bind_congr fun user => ?_
    split <;> simp

/-- The objects that a projection lists, or all. -/
def listed (list : UserProjection → Std.ExtTreeSet Int) : Option UserProjection → ObjectIds
  | none => .all
  | some held => .only (list held)

theorem hasRole_eq (object : ObjectRef) (role : Role) : hasRole token object role =
    (·.all (·.hasRole object role)) <$> entitlement token (role == .reader) := by
  rw [map_entitlement]
  rfl

theorem hasPermission_eq (object : ObjectRef) (permission : Permission) :
    hasPermission token object permission =
      (·.all (·.hasPermission object permission)) <$> entitlement token (permission == .read) := by
  rw [map_entitlement]
  rfl

theorem objectsWithRole_eq (objectClass : ObjectClass) (role : Role) :
    objectsWithRole token objectClass role =
      listed (·.objectsWithRole objectClass role) <$> entitlement token (role == .reader) := by
  rw [map_entitlement]
  rfl

theorem objectsWithPermission_eq (objectClass : ObjectClass) (permission : Permission) :
    objectsWithPermission token objectClass permission =
      listed (·.objectsWithPermission objectClass permission) <$>
        entitlement token (permission == .read) := by
  rw [map_entitlement]
  rfl

theorem objectPermissions_eq (object : ObjectRef) : objectPermissions token object = (do
    let registry := (← get).registry
    match ← entitlement token false with
    | none => return registry.permissions object.objectClass
    | some held =>
      if ← isOperator token then return (held.permissions object).insert .read
      return held.permissions object) := by
  unfold objectPermissions entitlement heldBy modeSuffices
  refine bind_congr fun current => ?_
  simp only [bind_assoc]
  refine bind_congr fun administrator => ?_
  cases administrator with
  | true => simp
  | false =>
    simp only [Bool.false_eq_true, if_false, pure_bind, bind_assoc]
    refine bind_congr fun user => ?_
    split <;> simp

theorem keeps_entitlement {relation : Service → Service → Prop} [KeptByReading relation]
    (token : AccessToken) (reading : Bool) : Keeps relation (entitlement token reading) := by
  unfold entitlement heldBy userProjection
  refine .bind (keeps_modeSuffices token reading) fun settled => ?_
  split
  · exact .pure
  · refine .bind (keeps_userId token) fun user => ?_
    split
    · exact .pure
    · exact .bind (.bind (KeptByReading.loadedUserProjection user) fun _ => .pure) fun _ => .pure

/-- All permissions that are declared, or those of the projection, with reading for operators. -/
def allPermissions (service : Service) (token : AccessToken) (object : ObjectRef) :
    Option UserProjection → Std.ExtTreeSet Permission
  | none => service.registry.permissions object.objectClass
  | some held =>
    if service.modes[token]?.isSome then (held.permissions object).insert .read
    else held.permissions object

theorem ensures_objectPermissions (object : ObjectRef) :
    Ensures (objectPermissions token object) service
      (fun permissions _ => ∃ held, ((entitlement token false).run.run service).1 = .ok held ∧
        permissions = service.allPermissions token object held) (fun _ _ => True) := by
  have modes : KeepsAt SameModes service (entitlement token false) :=
    keeps_entitlement token false service
  have asks : Ensures (entitlement token false) service
      (fun held after => ((entitlement token false).run.run service).1 = .ok held ∧
        after.modes = service.modes) (fun _ _ => True) := by
    unfold Ensures
    rcases result : (entitlement token false).run.run service with ⟨fault | held, after⟩
    · trivial
    · exact ⟨rfl, Ensures.of_ok modes result⟩
  rw [objectPermissions_eq]
  simp only [ensures_bind, ensures_get]
  refine asks.mono ?_ fun _ _ => id
  rintro (_ | held) after ⟨answered, modes⟩
  · exact ⟨none, answered, rfl⟩
  · have operator : Ensures (isOperator token) after
        (fun isOperator _ => isOperator = service.modes[token]?.isSome) (fun _ _ => True) := by
      rw [← modes]
      exact (rfl : after.modes[token]?.isSome = _)
    refine ensures_bind.mpr (operator.mono ?_ fun _ _ => id)
    rintro _ later rfl
    unfold allPermissions
    cases asked : service.modes[token]?.isSome with
    | true => exact ⟨some held, answered, rfl⟩
    | false => exact ⟨some held, answered, rfl⟩

end Service

/-! ### Projections in the cache -/

/-- Every projection of a user that is in the cache is filed. -/
def Service.Filed (service : Service) : Prop :=
  ∀ {user projection}, service.cache.userProjections.value? user = some projection →
    UserProjection.Filed projection

namespace Service.Filed

/-- **Every event keeps projections filed.** -/
theorem event (occurrence : Occurrence) (filed : occurrence.before.Filed) :
    occurrence.after.Filed := by
  intro user projection found
  cases turn_of_event occurrence with
  | made change makes =>
    obtain ⟨asked, quiet, made⟩ := makes.made
    exact (Upkeep.ofQuiet quiet).users (made.kept found) |>.filed filed
  | cleared called =>
    unfold Occurrence.after at found
    rw [called] at found
    change (occurrence.before.cache.userProjections.clear).value? user = some projection at found
    rw [Shelf.value?_clear] at found
    exact nomatch found
  | kept _ upkeep => exact (upkeep.users found).filed filed

theorem run {rule : Occurrence → Prop} {start : Service} {past : List Occurrence}
    (empty : start.cache = .empty) (run : Run rule start past service) : service.Filed := by
  induction run with
  | start =>
    intro user projection found
    rw [empty] at found
    exact nomatch found
  | next event _ _ ih => exact Filed.event ⟨_, event⟩ ih

/-- What is shown is filed, cached or loaded. -/
theorem shownTo (filed : service.Filed) (user : UserId) :
    UserProjection.Filed (service.shownTo user) := by
  cases cached : service.cache.userProjections.value? user with
  | some projection =>
    rw [shownTo_of_cached cached]
    exact filed cached
  | none =>
    have derived : Derived service.registry (fun _ => True) none (service.userProjectionOf user) :=
      derived_ofEntries fun _ _ => trivial
    rw [shownTo_of_missed cached]
    exact derived.filed fun never => (Option.some_ne_none _ never.symm).elim

theorem entitlement (filed : service.Filed) (token : AccessToken) (reading : Bool)
    {held : UserProjection}
    (answered : ((Service.entitlement token reading).run.run service).1 = .ok (some held)) :
    UserProjection.Filed held := by
  have holds : Ensures (heldBy token) service (fun held _ => ∀ projection, held = some projection →
      UserProjection.Filed projection) (fun _ _ => True) := by
    have asks : KeepsAt Quiet service (userId token) := keeps_userId token service
    unfold heldBy
    refine ensures_bind.mpr (Ensures.mono asks ?_ fun _ _ _ => trivial)
    intro user middle quiet
    split
    · refine ensures_pure.mpr fun _ never => ?_
      cases never
    · simp only [ensures_bind, ensures_pure]
      refine (ensures_userProjection user).mono ?_ fun _ _ _ => trivial
      rintro _ after rfl projection same
      obtain rfl := Option.some.inj same
      rw [quiet.shownTo_eq]
      exact filed.shownTo user
  rw [run_entitlement] at answered
  split at answered
  · cases answered
  · exact holds.of_answer answered held rfl

end Service.Filed

/-! ### Checks and listings -/

/-- The answer to a call, or why there is none. -/
def Action.answer {α : Type} (action : Action α) (service : Service) : Except AccessError α :=
  (action.run.run service).1

theorem answer_map {α β : Type} (change : α → β) (action : Action α) (service : Service) :
    (change <$> action).answer service = change <$> action.answer service := by
  unfold Action.answer
  rw [map_eq_pure_bind, ExceptT.run_bind, StateT.run_bind]
  rcases action.run.run service with ⟨fault | value, after⟩ <;> rfl

variable {rule : Occurrence → Prop} {start : Service} {past : List Occurrence}

/-- What is asked first comes to the same in both calls, or both fail with it. -/
theorem answer_entitlement_congr {α : Type} {first second : Option UserProjection → α}
    (filed : service.Filed) (reading : Bool) (everything : first none = second none)
    (same : ∀ held, UserProjection.Filed held → first (some held) = second (some held)) :
    (first <$> entitlement token reading).answer service =
      (second <$> entitlement token reading).answer service := by
  rw [answer_map, answer_map]
  cases answered : (entitlement token reading).answer service with
  | error fault => rfl
  | ok held =>
    refine congrArg Except.ok ?_
    cases held with
    | none => exact everything
    | some held => exact same held (filed.entitlement token reading answered)

theorem hasRole_answer_eq (filed : service.Filed) (objectClass : ObjectClass) (id : Int)
    (role : Role) : (hasRole token ⟨objectClass, id⟩ role).answer service =
      (·.contains id) <$> (objectsWithRole token objectClass role).answer service := by
  rw [← answer_map, hasRole_eq, objectsWithRole_eq, Functor.map_map]
  refine answer_entitlement_congr filed _ rfl fun held filed => ?_
  show held.hasRole ⟨objectClass, id⟩ role = (held.objectsWithRole objectClass role).contains id
  rw [Bool.eq_iff_iff, Std.ExtTreeSet.contains_iff_mem, filed.mem_objectsWithRole_iff]

theorem hasPermission_answer_eq (filed : service.Filed) (objectClass : ObjectClass) (id : Int)
    (permission : Permission) : (hasPermission token ⟨objectClass, id⟩ permission).answer service =
      (·.contains id) <$> (objectsWithPermission token objectClass permission).answer service := by
  rw [← answer_map, hasPermission_eq, objectsWithPermission_eq, Functor.map_map]
  refine answer_entitlement_congr filed _ rfl fun held filed => ?_
  show held.hasPermission ⟨objectClass, id⟩ permission =
    (held.objectsWithPermission objectClass permission).contains id
  rw [Bool.eq_iff_iff, Std.ExtTreeSet.contains_iff_mem, filed.mem_objectsWithPermission_iff]

/-- Where the permissions on an object are listed, they are those that are allowed. -/
theorem mem_objectPermissions_iff {object : ObjectRef} {permissions : Std.ExtTreeSet Permission}
    (answered : (objectPermissions token object).answer service = .ok permissions)
    {permission : Permission}
    (declared : permission ∈ service.registry.permissions object.objectClass) :
    permission ∈ permissions ↔
      (hasPermission token object permission).answer service = .ok true := by
  obtain ⟨held, asked, rfl⟩ := (ensures_objectPermissions object).of_answer answered
  rw [hasPermission_eq, answer_map]
  unfold Action.answer
  -- Reading is settled by the mode of an operator, and everything else as it was for the list.
  by_cases operates : (permission == .read && service.modes[token]?.isSome) = true
  · have settled : service.settles token (permission == .read) = true := by
      unfold settles
      rw [operates, Bool.or_true]
    obtain ⟨isRead, operator⟩ := Bool.and_eq_true_iff.mp operates
    obtain rfl := beq_iff_eq.mp isRead
    rw [run_entitlement, if_pos settled]
    refine ⟨fun _ => rfl, fun _ => ?_⟩
    unfold allPermissions
    cases held with
    | none => exact declared
    | some held =>
      rw [operator]
      exact Std.ExtTreeSet.mem_insert_self
  · have settled : service.settles token (permission == .read) = service.settles token false := by
      unfold settles
      rw [Bool.not_eq_true] at operates
      rw [operates, Bool.false_and]
    have same : (entitlement token (permission == .read)).run.run service =
        (entitlement token false).run.run service := by
      rw [run_entitlement, run_entitlement, settled]
    rw [same, asked]
    unfold allPermissions
    cases held with
    | none => exact ⟨fun _ => rfl, fun _ => declared⟩
    | some held =>
      have holds : (Except.ok (held.hasPermission object permission) : Except AccessError Bool) =
          .ok true ↔ permission ∈ held.permissions object := by
        rw [Except.ok.injEq]
        exact Std.ExtTreeSet.contains_iff_mem
      refine Iff.trans ?_ holds.symm
      dsimp only
      split
      · rename_i operator
        have other : permission ≠ .read := by
          rintro rfl
          exact operates (by rw [operator]; rfl)
        rw [Std.ExtTreeSet.mem_insert]
        simp [other.symm]
      · exact Iff.rfl

/-- **Checks and listings agree in every state that is reached**, for administrators, operators, root
and anyone else. The check on an object and the listing of its class fail alike, or the check is
passed exactly for the objects that are listed; and where the permissions on an object are listed,
those that its type declares are listed exactly if the check for them is passed. -/
theorem checks_agree_of_run (empty : start.cache = .empty) (run : Run rule start past service)
    (token : AccessToken) (objectClass : ObjectClass) (id : Int) :
    (∀ role, (hasRole token ⟨objectClass, id⟩ role).answer service =
      (·.contains id) <$> (objectsWithRole token objectClass role).answer service) ∧
    (∀ permission, (hasPermission token ⟨objectClass, id⟩ permission).answer service =
      (·.contains id) <$> (objectsWithPermission token objectClass permission).answer service) ∧
    ∀ permissions, (objectPermissions token ⟨objectClass, id⟩).answer service = .ok permissions →
      ∀ permission ∈ service.registry.permissions objectClass,
        (permission ∈ permissions ↔
          (hasPermission token ⟨objectClass, id⟩ permission).answer service = .ok true) := by
  have filed : service.Filed := Service.Filed.run empty run
  exact ⟨hasRole_answer_eq filed objectClass id, hasPermission_answer_eq filed objectClass id,
    fun _ answered _ declared => mem_objectPermissions_iff answered declared⟩

/-- The sample service whose user comes with a token. -/
def Service.sampleWithToken : Service :=
  { Service.sample with directory := Service.sample.directory.addToken "caller" "1" }

/-- A role is granted to the user and worked into the cached projection. -/
def rememberedEvents : List Event := [
  .call (.ask (.userProjection "1")),
  .call (.manage 0 .begin),
  .call (.manage 0 (.createEntry (.user "1") .sample .reader)),
  .call (.manage 0 .commit)]

theorem listed_after_rememberedEvents :
    (·.contains 1) <$> (objectsWithRole "caller" .resource .reader).answer
      (replay [] .sampleWithToken rememberedEvents).2 = (.ok true : Except AccessError Bool) := by
  generalize reached : (replay [] .sampleWithToken rememberedEvents).2 = service
  have run : Run (fun _ => True) .sampleWithToken (replay [] .sampleWithToken rememberedEvents).1
      service := reached ▸ .ofEvents fun _ _ => trivial
  have checked : (hasRole "caller" .sample .reader).answer service = .ok true :=
    ok_of_toOption (by subst reached; decide +kernel)
  exact ((checks_agree_of_run rfl run _ .resource 1).1 .reader).symm.trans checked

end BookingAccess
