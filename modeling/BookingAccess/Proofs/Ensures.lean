/-
**What a call ensures.**

A call of the service ends with a value or with a fault, and in both cases with a state. `Ensures`
states what holds then; the rules below follow the way in which calls are put together.

* `ensures_bind`, `ensures_tryCatch`: one call after another, and a call whose fault is caught;
* `Ensures.mono`: what is ensured may be weakened;
* `Keeps`: a relation between the states before and after a call, whatever its outcome; a relation
  that is reflexive and transitive is kept by a sequence of calls if each of them keeps it;
* `KeepsAt`: the same of a call that is made in a given state, so that it may depend on what was
  found out before.
-/

import BookingAccess.Service.Collaborators
import Mathlib.Order.Defs.Unbundled

namespace BookingAccess

variable {ε δ α β : Type}

/-- The call, made in this state, ends with a value and a state that are `good`, or with a fault
and a state that are `bad`. -/
def Ensures (action : ExceptT ε (StateM Service) α) (service : Service)
    (good : α → Service → Prop) (bad : ε → Service → Prop) : Prop :=
  match (action.run.run service : Except ε α × Service) with
  | (.ok value, after) => good value after
  | (.error fault, after) => bad fault after

section Rules

variable {service : Service} {good good' : α → Service → Prop} {bad bad' : ε → Service → Prop}

/-! ### Reading a call off -/

theorem Ensures.of_ok {action : ExceptT ε (StateM Service) α} {value : α} {after : Service}
    (ensured : Ensures action service good bad)
    (result : action.run.run service = (.ok value, after)) : good value after := by
  unfold Ensures at ensured
  rw [result] at ensured
  exact ensured

theorem Ensures.of_answer {action : ExceptT ε (StateM Service) α} {value : α}
    (ensured : Ensures action service good bad)
    (answered : (action.run.run service).1 = .ok value) :
    good value (action.run.run service).2 :=
  ensured.of_ok (Prod.ext answered rfl)

theorem Ensures.of_error {action : ExceptT ε (StateM Service) α} {fault : ε} {after : Service}
    (ensured : Ensures action service good bad)
    (result : action.run.run service = (.error fault, after)) : bad fault after := by
  unfold Ensures at ensured
  rw [result] at ensured
  exact ensured

/-- What holds of the state after the call, whatever the outcome. -/
theorem Ensures.after {action : ExceptT ε (StateM Service) α} {post : Service → Prop}
    (ensured : Ensures action service (fun _ => post) (fun _ => post)) :
    post (action.run.run service).2 := by
  unfold Ensures at ensured
  split at ensured
  all_goals
    rename_i result
    rw [result]
    exact ensured

/-- A call that cannot end with a fault has an answer. -/
theorem Ensures.exists_answer {action : ExceptT ε (StateM Service) α}
    (ensured : Ensures action service good (fun _ _ => False)) :
    ∃ value, (action.run.run service).1 = .ok value ∧ good value (action.run.run service).2 := by
  rcases result : action.run.run service with ⟨fault | value, after⟩
  · exact (ensured.of_error result).elim
  · exact ⟨value, rfl, ensured.of_ok result⟩

/-- What is ensured in two ways is ensured together. -/
theorem Ensures.and {action : ExceptT ε (StateM Service) α}
    (first : Ensures action service good bad) (second : Ensures action service good' bad') :
    Ensures action service (fun value after => good value after ∧ good' value after)
      (fun fault after => bad fault after ∧ bad' fault after) := by
  unfold Ensures at *
  split
  all_goals simp_all only [and_self]

theorem Ensures.mono {action : ExceptT ε (StateM Service) α}
    (ensured : Ensures action service good bad)
    (goods : ∀ value after, good value after → good' value after)
    (bads : ∀ fault after, bad fault after → bad' fault after) :
    Ensures action service good' bad' := by
  unfold Ensures at *
  split
  all_goals simp_all only

/-! ### Single steps -/

@[simp] theorem ensures_pure {value : α} :
    Ensures (pure value) service good bad ↔ good value service := Iff.rfl

@[simp] theorem ensures_throw {fault : ε} :
    Ensures (throw fault) service good bad ↔ bad fault service := Iff.rfl

@[simp] theorem ensures_get {good : Service → Service → Prop} :
    Ensures get service good bad ↔ good service service := Iff.rfl

@[simp] theorem ensures_set {next : Service} {good : PUnit → Service → Prop} :
    Ensures (set next) service good bad ↔ good ⟨⟩ next := Iff.rfl

@[simp] theorem ensures_modify {change : Service → Service} {good : PUnit → Service → Prop} :
    Ensures (modify change) service good bad ↔ good ⟨⟩ (change service) := Iff.rfl

@[simp] theorem ensures_modifyCache {change : Cache → Cache} {good : Unit → Service → Prop}
    {bad : AccessError → Service → Prop} :
    Ensures (Service.modifyCache change) service good bad ↔
      good () { service with cache := change service.cache } := Iff.rfl

@[simp] theorem ensures_record {event : AuditEvent} {good : Unit → Service → Prop}
    {bad : AccessError → Service → Prop} :
    Ensures (Service.record event) service good bad ↔
      good () { service with trail := event :: service.trail } := Iff.rfl

/-- A value that is worked out beforehand, as the collaborators do. -/
@[simp] theorem ensures_mk_pure {result : Except ε α} :
    Ensures (ExceptT.mk (pure result)) service good bad ↔
      match result with
      | .ok value => good value service
      | .error fault => bad fault service := by
  cases result <;> exact Iff.rfl

/-! ### Calls put together -/

@[simp] theorem ensures_bind {action : ExceptT ε (StateM Service) α}
    {next : α → ExceptT ε (StateM Service) β} {good : β → Service → Prop} :
    Ensures (action >>= next) service good bad ↔
      Ensures action service (fun value after => Ensures (next value) after good bad) bad := by
  unfold Ensures ExceptT.run StateT.run
  simp only [bind, ExceptT.bind, ExceptT.mk, StateT.bind, ExceptT.bindCont]
  rcases (action service : Except ε α × Service) with ⟨_ | _, _⟩ <;> exact Iff.rfl

/-- After a call that cannot end with a fault, only what follows counts. -/
theorem Ensures.followed {action : ExceptT ε (StateM Service) α}
    {next : α → ExceptT ε (StateM Service) β} {after : β → Service → Prop}
    (ensured : Ensures action service good (fun _ _ => False))
    (follows : ∀ value middle, good value middle → Ensures (next value) middle after bad) :
    Ensures (action >>= next) service after bad :=
  ensures_bind.mpr (ensured.mono follows fun _ _ => False.elim)

@[simp] theorem ensures_map {action : ExceptT ε (StateM Service) α} {change : α → β}
    {good : β → Service → Prop} :
    Ensures (change <$> action) service good bad ↔
      Ensures action service (fun value after => good (change value) after) bad := by
  rw [map_eq_pure_bind, ensures_bind]
  simp only [ensures_pure]

@[simp] theorem ensures_tryCatch {action : ExceptT ε (StateM Service) α}
    {handler : ε → ExceptT ε (StateM Service) α} :
    Ensures (tryCatch action handler) service good bad ↔
      Ensures action service good (fun fault after => Ensures (handler fault) after good bad) := by
  unfold Ensures ExceptT.run StateT.run
  simp only [tryCatch, tryCatchThe, MonadExceptOf.tryCatch, ExceptT.tryCatch, ExceptT.mk, bind,
    StateT.bind]
  rcases (action service : Except ε α × Service) with ⟨_ | _, _⟩ <;> exact Iff.rfl

@[simp] theorem ensures_adapt {action : ExceptT ε (StateM Service) α} {change : ε → δ}
    {bad : δ → Service → Prop} :
    Ensures (action.adapt change) service good bad ↔
      Ensures action service good (fun fault after => bad (change fault) after) := by
  unfold Ensures ExceptT.run StateT.run
  delta ExceptT.adapt
  simp only [ExceptT.mk, Functor.map, StateT.map]
  rcases (action service : Except ε α × Service) with ⟨_ | _, _⟩ <;> exact Iff.rfl

@[simp] theorem ensures_ofStore {action : StoreAction α} {bad : AccessError → Service → Prop} :
    Ensures (Action.ofStore action) service good bad ↔
      Ensures action service good (fun fault after => bad (.storage fault) after) :=
  ensures_adapt

@[simp] theorem ensures_ofDirectory {action : DirectoryAction α}
    {bad : AccessError → Service → Prop} :
    Ensures (Action.ofDirectory action) service good bad ↔
      Ensures action service good (fun fault after => bad (.ofDirectory fault) after) :=
  ensures_adapt

@[simp] theorem ensures_outcome {action : DirectoryAction α}
    {good : Except DirectoryError α → Service → Prop} {bad : AccessError → Service → Prop} :
    Ensures action.outcome service good bad ↔
      Ensures action service (fun value => good (.ok value))
        (fun fault => good (.error fault)) := by
  unfold Ensures DirectoryAction.outcome ExceptT.run StateT.run
  simp only [ExceptT.lift, ExceptT.mk, Functor.map, StateT.map]
  rcases (action service : Except DirectoryError α × Service) with ⟨_ | _, _⟩ <;> exact Iff.rfl

/-- **A call for each item of a list.** The calls keep an invariant, each call gets its item done,
and what is done stays done. -/
theorem Ensures.forM (invariant : Service → Prop) (done : α → Service → Prop)
    {action : α → ExceptT ε (StateM Service) PUnit} {items : List α} (holds : invariant service)
    (each : ∀ item ∈ items, ∀ before, invariant before →
      Ensures (action item) before
        (fun _ after => invariant after ∧ done item after ∧
          ∀ other, done other before → done other after)
        bad) :
    Ensures (items.forM action) service
      (fun _ after => invariant after ∧ (∀ item ∈ items, done item after) ∧
        ∀ other, done other service → done other after)
      bad := by
  induction items generalizing service with
  | nil => exact ⟨holds, fun _ absent => (List.not_mem_nil absent).elim, fun _ before => before⟩
  | cons item items ih =>
    rw [List.forM_eq_forM, List.forM_cons, ensures_bind]
    refine (each item (.head _) service holds).mono ?_ fun _ _ wrong => wrong
    rintro _ middle ⟨kept, itemDone, stays⟩
    refine (ih kept fun other member => each other (.tail _ member)).mono ?_ fun _ _ wrong => wrong
    rintro _ after ⟨keptAfter, restDone, staysAfter⟩
    refine ⟨keptAfter, ?_, fun other before => staysAfter _ (stays _ before)⟩
    rintro other (_ | ⟨_, member⟩)
    · exact staysAfter _ itemDone
    · exact restDone other member

/-- **A call for each item of a list, in order.** What has been reached is stated of the items so
far. -/
theorem Ensures.forInOrder (reached : List α → Service → Prop)
    {action : α → ExceptT ε (StateM Service) PUnit} {items : List α} (start : reached [] service)
    (each : ∀ earlier item later, items = earlier ++ item :: later → ∀ before,
      reached earlier before →
        Ensures (action item) before (fun _ => reached (earlier ++ [item])) bad) :
    Ensures (items.forM action) service (fun _ => reached items) bad := by
  suffices rest : ∀ later earlier service, items = earlier ++ later → reached earlier service →
      Ensures (later.forM action) service (fun _ => reached items) bad from
    rest items [] service rfl start
  intro later
  induction later with
  | nil =>
    rintro earlier service rfl soFar
    exact earlier.append_nil.symm ▸ soFar
  | cons item later ih =>
    intro earlier service split soFar
    rw [List.forM_eq_forM, List.forM_cons, ensures_bind]
    refine (each earlier item later split service soFar).mono ?_ fun _ _ => id
    intro _ middle next
    exact ih (earlier ++ [item]) middle (by rw [split, List.append_assoc]; rfl) next

end Rules

/-! ### Relations between the states before and after -/

/-- However the call ends, the relation holds between the states before and after it. -/
def Keeps (relation : Service → Service → Prop) (action : ExceptT ε (StateM Service) α) : Prop :=
  ∀ service, Ensures action service (fun _ => relation service) (fun _ => relation service)

namespace Keeps

variable {relation : Service → Service → Prop}

theorem after {action : ExceptT ε (StateM Service) α} (keeps : Keeps relation action)
    (service : Service) : relation service (action.run.run service).2 :=
  (keeps service).after

theorem mono {weaker : Service → Service → Prop} {action : ExceptT ε (StateM Service) α}
    (keeps : Keeps relation action)
    (follows : ∀ before after, relation before after → weaker before after) :
    Keeps weaker action :=
  fun service => (keeps service).mono (fun _ => follows service) fun _ => follows service

theorem modify {change : Service → Service} (step : ∀ service, relation service (change service)) :
    Keeps relation (modify change : ExceptT ε (StateM Service) PUnit) := step

theorem ofStore {action : StoreAction α} (keeps : Keeps relation action) :
    Keeps relation (Action.ofStore action) := fun service => ensures_ofStore.mpr (keeps service)

theorem ofDirectory {action : DirectoryAction α} (keeps : Keeps relation action) :
    Keeps relation (Action.ofDirectory action) :=
  fun service => ensures_ofDirectory.mpr (keeps service)

theorem outcome {action : DirectoryAction α} (keeps : Keeps relation action) :
    Keeps relation action.outcome :=
  fun service => ensures_outcome.mpr (keeps service)

theorem map {action : ExceptT ε (StateM Service) α} {change : α → β}
    (keeps : Keeps relation action) : Keeps relation (change <$> action) :=
  fun service => ensures_map.mpr (keeps service)

variable [IsPreorder Service relation]

theorem pure {value : α} :
    Keeps relation (Pure.pure value : ExceptT ε (StateM Service) α) := fun service => refl service

/-- What comes after a fault is not done. -/
theorem stop {fault : ε} {next : α → ExceptT ε (StateM Service) β} :
    Keeps relation ((throw fault : ExceptT ε (StateM Service) α) >>= next) :=
  fun service => ensures_bind.mpr (ensures_throw.mpr (refl service))

theorem throw {fault : ε} :
    Keeps relation (throw fault : ExceptT ε (StateM Service) α) := fun service => refl service

theorem get : Keeps relation (get : ExceptT ε (StateM Service) Service) :=
  fun service => refl service

theorem bind {action : ExceptT ε (StateM Service) α} {next : α → ExceptT ε (StateM Service) β}
    (first : Keeps relation action) (second : ∀ value, Keeps relation (next value)) :
    Keeps relation (action >>= next) := by
  intro service
  refine ensures_bind.mpr ((first service).mono ?_ fun _ _ wrong => wrong)
  intro value middle before
  refine (second value middle).mono ?_ ?_
  · exact fun _ _ after => IsTrans.trans _ _ _ before after
  · exact fun _ _ after => IsTrans.trans _ _ _ before after

theorem tryCatch {action : ExceptT ε (StateM Service) α}
    {handler : ε → ExceptT ε (StateM Service) α} (first : Keeps relation action)
    (second : ∀ fault, Keeps relation (handler fault)) :
    Keeps relation (tryCatch action handler) := by
  intro service
  refine ensures_tryCatch.mpr ((first service).mono (fun _ _ right => right) ?_)
  intro fault middle before
  refine (second fault middle).mono ?_ ?_
  · exact fun _ _ after => IsTrans.trans _ _ _ before after
  · exact fun _ _ after => IsTrans.trans _ _ _ before after

theorem forM {action : α → ExceptT ε (StateM Service) PUnit} {items : List α}
    (each : ∀ item, Keeps relation (action item)) : Keeps relation (items.forM action) := by
  induction items with
  | nil => exact pure
  | cons item items ih =>
    rw [List.forM_eq_forM, List.forM_cons]
    exact bind (each item) fun _ => ih

end Keeps

/-- However the call ends that is made in this state, the relation holds between this state and the
one after it. -/
def KeepsAt (relation : Service → Service → Prop) (service : Service)
    (action : ExceptT ε (StateM Service) α) : Prop :=
  Ensures action service (fun _ => relation service) fun _ => relation service

namespace KeepsAt

variable {relation : Service → Service → Prop} {service : Service}

theorem after {action : ExceptT ε (StateM Service) α} (keeps : KeepsAt relation service action) :
    relation service (action.run.run service).2 :=
  Ensures.after keeps

theorem mono {weaker : Service → Service → Prop} {action : ExceptT ε (StateM Service) α}
    (keeps : KeepsAt relation service action)
    (follows : ∀ after, relation service after → weaker service after) :
    KeepsAt weaker service action :=
  Ensures.mono keeps (fun _ => follows) fun _ => follows

theorem map {action : ExceptT ε (StateM Service) α} {change : α → β}
    (keeps : KeepsAt relation service action) : KeepsAt relation service (change <$> action) :=
  ensures_map.mpr keeps

theorem ofStore {action : StoreAction α} (keeps : KeepsAt relation service action) :
    KeepsAt relation service (Action.ofStore action) :=
  ensures_ofStore.mpr keeps

/-- What is done with the state that was looked at. -/
theorem get {next : Service → ExceptT ε (StateM Service) α}
    (keeps : KeepsAt relation service (next service)) :
    KeepsAt relation service (MonadState.get >>= next) :=
  ensures_bind.mpr (ensures_get.mpr keeps)

/-- Nothing is known but that the relation holds. -/
theorem ensures {action : ExceptT ε (StateM Service) α} (keeps : KeepsAt relation service action) :
    Ensures action service (fun _ middle => relation service middle ∧ True)
      fun _ => relation service :=
  Ensures.mono keeps (fun _ _ before => ⟨before, trivial⟩) fun _ _ before => before

variable [IsPreorder Service relation]

theorem pure {value : α} :
    KeepsAt relation service (Pure.pure value : ExceptT ε (StateM Service) α) :=
  refl service

theorem throw {fault : ε} :
    KeepsAt relation service (throw fault : ExceptT ε (StateM Service) α) :=
  refl service

/-- One call after another, where each of them finds something out. -/
theorem ensuresBind {action : ExceptT ε (StateM Service) α}
    {next : α → ExceptT ε (StateM Service) β} {known : α → Service → Prop}
    {post : β → Service → Prop}
    (first : Ensures action service
      (fun value middle => relation service middle ∧ known value middle) fun _ => relation service)
    (second : ∀ value middle, relation service middle → known value middle →
      Ensures (next value) middle (fun answer after => relation middle after ∧ post answer after)
        fun _ => relation middle) :
    Ensures (action >>= next) service
      (fun answer after => relation service after ∧ post answer after)
      fun _ => relation service := by
  refine ensures_bind.mpr (first.mono ?_ fun _ _ wrong => wrong)
  rintro value middle ⟨before, knows⟩
  refine (second value middle before knows).mono ?_ ?_
  · exact fun _ _ => And.imp_left (IsTrans.trans _ _ _ before)
  · exact fun _ _ after => IsTrans.trans _ _ _ before after

/-- One call after another, where the first one has found something out. -/
theorem bindKnown {action : ExceptT ε (StateM Service) α}
    {next : α → ExceptT ε (StateM Service) β} {known : α → Service → Prop}
    (first : Ensures action service
      (fun value middle => relation service middle ∧ known value middle) fun _ => relation service)
    (second : ∀ value middle, relation service middle → known value middle →
      KeepsAt relation middle (next value)) :
    KeepsAt relation service (action >>= next) :=
  (ensuresBind first fun value middle before knows =>
    (second value middle before knows).ensures).mono (fun _ _ => And.left) fun _ _ => id

theorem bind {action : ExceptT ε (StateM Service) α} {next : α → ExceptT ε (StateM Service) β}
    (first : KeepsAt relation service action)
    (second : ∀ value middle, relation service middle → KeepsAt relation middle (next value)) :
    KeepsAt relation service (action >>= next) :=
  bindKnown first.ensures fun value middle before _ => second value middle before

theorem forM {action : α → ExceptT ε (StateM Service) PUnit} {items : List α}
    (each : ∀ item ∈ items, ∀ middle, relation service middle →
      KeepsAt relation middle (action item)) :
    KeepsAt relation service (items.forM action) := by
  induction items generalizing service with
  | nil => exact pure
  | cons item items ih =>
    rw [List.forM_eq_forM, List.forM_cons]
    refine bind (each item (.head _) service (refl _)) fun _ middle before => ?_
    exact ih fun other member later after =>
      each other (.tail _ member) later (IsTrans.trans _ _ _ before after)

end KeepsAt

end BookingAccess
