/-
**While every collaborator can be reached.**

As long as no collaborator is out of reach, a call ends with an answer or with a fault that is no
outage, and whoever could be reached before can be reached after it. So a projection that is asked
for is always given.

* `Reaches`: what is said of a call, with rules for the ways in which calls are put together;
* `Action.Gives`: the answer of a call is this one, unless a collaborator cannot be reached;
* `reaches_group`, `reaches_groupIdByName`, `reaches_groupMembers`: groups;
* `reaches_loadedUserProjection`, `reaches_loadedObjectProjection`: projections;
* `reaches_applyAddition`, `reaches_applyRemoval`: entries that are worked into them or out of them.
-/

import BookingAccess.Proofs.Service.Asking
import BookingAccess.Service.Projections

namespace BookingAccess

open Service

variable {ε α β : Type} {isOutage : ε → Bool}

/-- Does the service report this fault of the directory as an outage? -/
def DirectoryError.reportsOutage (fault : DirectoryError) : Bool :=
  (AccessError.ofDirectory fault).isOutage

/-- Called while every collaborator can be reached, the call ends without an outage. -/
def Reaches (isOutage : ε → Bool) (action : ExceptT ε (StateM Service) α) : Prop :=
  ∀ service : Service, service.outages = .none → Ensures action service
    (fun _ after => after.outages = .none)
    (fun fault after => isOutage fault = false ∧ after.outages = .none)

namespace Reaches

/-! ### Calls put together -/

theorem pure {value : α} :
    Reaches isOutage (Pure.pure value : ExceptT ε (StateM Service) α) := fun _ => id

theorem throw {fault : ε} (known : isOutage fault = false) :
    Reaches isOutage (throw fault : ExceptT ε (StateM Service) α) := fun _ reached =>
  ⟨known, reached⟩

theorem get : Reaches isOutage (get : ExceptT ε (StateM Service) Service) := fun _ => id

theorem bind {action : ExceptT ε (StateM Service) α} {next : α → ExceptT ε (StateM Service) β}
    (first : Reaches isOutage action) (second : ∀ value, Reaches isOutage (next value)) :
    Reaches isOutage (action >>= next) := fun service reached =>
  ensures_bind.mpr ((first service reached).mono (fun value after => second value after)
    fun _ _ => id)

theorem tryCatch {action : ExceptT ε (StateM Service) α}
    {handler : ε → ExceptT ε (StateM Service) α} (first : Reaches isOutage action)
    (second : ∀ fault, isOutage fault = false → Reaches isOutage (handler fault)) :
    Reaches isOutage (tryCatch action handler) := fun service reached =>
  ensures_tryCatch.mpr ((first service reached).mono (fun _ _ => id)
    fun fault after ⟨known, still⟩ => second fault known after still)

theorem modifyCache {change : Cache → Cache} :
    Reaches AccessError.isOutage (Service.modifyCache change) := fun _ => id

theorem record {event : AuditEvent} : Reaches AccessError.isOutage (Service.record event) :=
  fun _ => id

theorem forM {action : α → ExceptT ε (StateM Service) PUnit} {items : List α}
    (each : ∀ item, Reaches isOutage (action item)) : Reaches isOutage (items.forM action) := by
  induction items with
  | nil => exact pure
  | cons item items ih =>
    rw [List.forM_eq_forM, List.forM_cons]
    exact bind (each item) fun _ => ih

theorem ofStore {action : StoreAction α} (reaches : Reaches StoreError.isOutage action) :
    Reaches AccessError.isOutage (Action.ofStore action) := fun service reached =>
  ensures_ofStore.mpr (reaches service reached)

theorem ofDirectory {action : DirectoryAction α}
    (reaches : Reaches DirectoryError.reportsOutage action) :
    Reaches AccessError.isOutage (Action.ofDirectory action) := fun service reached =>
  ensures_ofDirectory.mpr (reaches service reached)

/-- A fault that is handed on as a value is no outage either. -/
theorem outcome {action : DirectoryAction α} {next : Except DirectoryError α → Action β}
    (reaches : Reaches DirectoryError.reportsOutage action)
    (answered : ∀ value, Reaches AccessError.isOutage (next (.ok value)))
    (refused : ∀ fault, fault.reportsOutage = false →
      Reaches AccessError.isOutage (next (.error fault))) :
    Reaches AccessError.isOutage (action.outcome >>= next) := by
  intro service reached
  rw [ensures_bind, ensures_outcome]
  exact (reaches service reached).mono (fun value after => answered value after)
    fun fault after ⟨known, still⟩ => refused fault known after still

end Reaches

/-- The answer of the call is this one, as long as every collaborator can be reached. -/
def Action.Gives (action : Action α) (service : Service) (told : Except AccessError α) : Prop :=
  (action.run.run service).1 = told ∨
    service.outages ≠ .none ∧
      ∃ fault, (action.run.run service).1 = .error fault ∧ fault.isOutage = true

namespace Action.Gives

variable {action : Action α} {service : Service} {told : Except AccessError α}

theorem answer (gives : action.Gives service told) (reached : service.outages = .none) :
    (action.run.run service).1 = told :=
  gives.resolve_right fun unreachable => unreachable.1 reached

/-- A call that only says what it is told to say, or that it met with an outage. -/
theorem ofEnsures (reaches : Reaches AccessError.isOutage action)
    (ensures : Ensures action service (fun value _ => told = .ok value)
      fun fault _ => told = .error fault ∨ fault.isOutage = true) : action.Gives service told := by
  rcases result : action.run.run service with ⟨fault | value, after⟩
  · rcases ensures.of_error result with refused | outage
    · exact .inl ((congrArg Prod.fst result).trans refused.symm)
    · refine .inr ⟨fun reached => ?_, fault, congrArg Prod.fst result, outage⟩
      have known := ((reaches service reached).of_error result).1
      exact Bool.false_ne_true (known.symm.trans outage)
  · exact .inl ((congrArg Prod.fst result).trans (ensures.of_ok result).symm)

end Action.Gives

/-! ### Questions to the collaborators -/

theorem reaches_storeRead (kind : StoreCall) (answer : Store → α) :
    Reaches StoreError.isOutage (StoreClient.read kind answer) := by
  intro service reached
  have reachable : service.outages.store service.calls kind = none := by rw [reached]; rfl
  unfold StoreClient.read StoreClient.call
  simp only [ensures_bind, ensures_get, ensures_set, reachable, ensures_mk_pure, ensures_modify,
    ensures_pure]
  exact reached

/-- The directory refuses a question for a reason of its own. -/
theorem reaches_directoryRead (kind : DirectoryCall)
    {answer : Directory → Except DirectoryError α}
    (refuses : ∀ {directory fault}, answer directory = .error fault →
      fault.reportsOutage = false) :
    Reaches DirectoryError.reportsOutage (DirectoryClient.read kind answer) := by
  intro service reached
  have reachable : service.outages.directory service.calls kind = none := by rw [reached]; rfl
  unfold DirectoryClient.read DirectoryClient.call
  simp only [ensures_bind, ensures_get, ensures_set, reachable, ensures_mk_pure, ensures_modify,
    ensures_pure]
  cases result : answer service.directory with
  | error fault => exact ⟨refuses result, reached⟩
  | ok value => exact reached

theorem reaches_remembered {look : Cache → Option α} {keep : Cache → α → Cache} {load : Action α}
    (loads : Reaches AccessError.isOutage load) :
    Reaches AccessError.isOutage (remembered look keep load) := by
  unfold remembered
  refine .bind .get fun service => ?_
  split
  · exact .pure
  · exact .bind loads fun _ => .bind .modifyCache fun _ => .pure

/-! ### Groups -/

theorem reaches_group (id : GroupId) : Reaches AccessError.isOutage (group id) := by
  have asks : Reaches DirectoryError.reportsOutage (DirectoryClient.group id) := by
    refine reaches_directoryRead _ fun {directory fault} refused => ?_
    unfold Directory.group at refused
    split at refused
    · exact nomatch refused
    · exact Except.error.inj refused ▸ rfl
  unfold group
  split
  · exact .pure
  refine .bind (reaches_remembered (.outcome asks (fun _ => .pure) fun fault known => ?_))
    fun found => ?_
  · cases fault with
    | groupNotFound => exact .pure
    | _ => exact .throw known
  · split
    · exact .pure
    · exact .throw rfl

theorem reaches_groupIdByName (name : String) :
    Reaches AccessError.isOutage (groupIdByName name) := by
  unfold groupIdByName
  split
  · exact .pure
  refine .bind .get fun service => ?_
  split
  · exact .pure
  refine .bind (.ofDirectory (reaches_directoryRead _ ?_)) fun _ =>
    .bind .modifyCache fun _ => .pure
  intro directory fault refused
  unfold Directory.groupIdOfName at refused
  split at refused
  · exact nomatch refused
  · exact Except.error.inj refused ▸ rfl

theorem reaches_groupMembers (group : GroupId) :
    Reaches AccessError.isOutage (groupMembers group) := by
  unfold groupMembers
  split
  · exact .pure
  · refine reaches_remembered (.bind (.ofDirectory (reaches_directoryRead _ ?_)) fun _ => .pure)
    intro directory fault refused
    unfold Directory.groupMembers at refused
    split at refused
    · exact nomatch refused
    · exact Except.error.inj refused ▸ rfl

theorem reaches_usersOf (identity : Identity) :
    Reaches AccessError.isOutage (usersOf identity) := by
  cases identity with
  | user user => exact .pure
  | group group => exact reaches_groupMembers group

theorem reaches_resolveUsers (identity : Identity) :
    Reaches AccessError.isOutage (resolveUsers identity) := by
  unfold resolveUsers
  refine .tryCatch (reaches_usersOf identity) fun fault known => ?_
  split
  · exact .bind .record fun _ => .pure
  · exact .throw known

/-! ### Projections -/

theorem reaches_resolveEntries (projection : ObjectProjection) (entries : List Entry) :
    Reaches AccessError.isOutage (resolveEntries projection entries) := by
  induction entries generalizing projection with
  | nil => exact .pure
  | cons entry entries ih =>
    exact .bind (reaches_resolveUsers entry.identity) fun _ => .bind .modifyCache fun _ => ih _

/-- **The projection of an object is given.** -/
theorem reaches_loadedObjectProjection (object : ObjectRef) :
    Reaches AccessError.isOutage (loadedObjectProjection object) := by
  have loads : Reaches AccessError.isOutage (loadObjectProjection object) :=
    .bind (.ofStore (reaches_storeRead _ _)) fun _ => reaches_resolveEntries _ _
  unfold loadedObjectProjection rememberedObjectProjection
  refine .bind .get fun service => ?_
  split
  · exact .pure
  · exact .bind loads fun _ => .bind .get fun _ => .bind .modifyCache fun _ => .pure

/-- **The projection of a user is given.** -/
theorem reaches_loadedUserProjection (user : UserId) :
    Reaches AccessError.isOutage (loadedUserProjection user) := by
  have asks : Reaches DirectoryError.reportsOutage (DirectoryClient.groupsOfUser user) := by
    refine reaches_directoryRead _ fun {directory fault} refused => ?_
    unfold Directory.groupsOfUser at refused
    split at refused
    · exact nomatch refused
    · exact Except.error.inj refused ▸ rfl
  have reads (groups : List GroupId) : Reaches AccessError.isOutage (do
      let identities := .user user :: .everyone :: groups.map Identity.group
      let entries ← Action.ofStore (StoreClient.entriesOf identities)
      Service.modifyCache fun cache => entries.foldl Cache.putEntry cache
      return UserProjection.ofEntries (← MonadState.get).registry entries) :=
    .bind (.ofStore (reaches_storeRead _ _)) fun _ => .bind .modifyCache fun _ =>
      .bind .get fun _ => .pure
  have loads : Reaches AccessError.isOutage (loadUserProjection user) := by
    unfold loadUserProjection
    refine .outcome asks (fun _ => .bind .pure reads) fun fault known => ?_
    cases fault with
    | userNotFound => exact .bind .pure reads
    | _ => exact .bind (.throw known) reads
  unfold loadedUserProjection rememberedUserProjection
  refine .bind .get fun service => ?_
  split
  · exact .pure
  · exact .bind loads fun _ => .bind .get fun _ => .bind .modifyCache fun _ => .pure

/-! ### Changes -/

theorem reaches_addToUsers (entry : Entry) (users : List UserId) :
    Reaches AccessError.isOutage (addToUsers entry users) := by
  induction users with
  | nil => exact .pure
  | cons user users ih =>
    unfold addToUsers
    split
    · exact .bind (reaches_loadedUserProjection user) fun _ => .bind .get fun _ =>
        .bind .modifyCache fun _ => ih
    · exact ih

theorem reaches_objectGains (entry : Entry) (members : UserIds) :
    Reaches AccessError.isOutage (do
      match (← MonadState.get).cache.objectProjections.get? entry.object with
      | some _ => updateObjectProjection entry.object fun projection =>
          (projection.add entry members).2
      | none =>
        let _ ← loadedObjectProjection entry.object) := by
  refine .bind .get fun _ => ?_
  split
  · exact .modifyCache
  · exact .bind (reaches_loadedObjectProjection _) fun _ => .pure

theorem reaches_applyAddition (entry : Entry) :
    Reaches AccessError.isOutage (applyAddition entry) := by
  unfold applyAddition
  refine .bind .modifyCache fun _ => .bind (reaches_resolveUsers _) fun members => ?_
  split
  · exact .bind .get fun _ => .bind .modifyCache fun _ => reaches_objectGains entry _
  · exact .bind (reaches_addToUsers entry _) fun _ => reaches_objectGains entry _

theorem reaches_removeFromUsers (entry : Entry) (users : List UserId) :
    Reaches AccessError.isOutage (removeFromUsers entry users) := by
  induction users with
  | nil => exact .pure
  | cons user users ih => exact .bind .get fun _ => .bind .modifyCache fun _ => ih

theorem reaches_applyRemoval (entry : Entry) :
    Reaches AccessError.isOutage (applyRemoval entry) := by
  have touched : Reaches AccessError.isOutage (usersTouchedBy entry.identity) := by
    unfold usersTouchedBy
    refine .tryCatch (reaches_usersOf _) fun fault known => ?_
    split
    · exact .pure
    · exact .throw known
  unfold applyRemoval
  refine .bind .modifyCache fun _ => .bind touched fun members => ?_
  split
  · exact .bind .get fun _ => .bind .modifyCache fun _ => .modifyCache
  · exact .bind (reaches_removeFromUsers entry _) fun _ => .modifyCache

/-- A question that fails only by outages is answered while every collaborator can be reached. -/
theorem exists_answer_of_reaches {service : Service} {action : Action α} {good : α → Service → Prop}
    (reached : service.outages = .none) (reaches : Reaches AccessError.isOutage action)
    (ensured : Ensures action service good (fun fault _ => fault.isOutage = true)) :
    ∃ value, (action.run.run service).1 = .ok value ∧ good value (action.run.run service).2 := by
  refine ((ensured.and (reaches service reached)).mono (fun _ _ => And.left) ?_).exists_answer
  rintro fault _ ⟨outage, known, _⟩
  exact Bool.false_ne_true (known.symm.trans outage)

end BookingAccess
