/-
**What an open transaction lets others see.**

A transaction changes the store at once and the cache when it is committed. A projection that is
cached when it begins tells nothing of it. One that is loaded in the meantime is read from the store
with whatever the transaction has done so far, and a rollback leaves it as it is.

* `Event.isWithin`: what may happen while a transaction is open;
* `shown_of_event`: nothing of this changes an answer that goes by a cached projection;
* `answer_eq_iff_of_run`: so an answer is the one from the beginning, or one of the store at the
  time of loading;
* `answer_eq_iff_of_rollback`: and it stays that after a rollback.
-/

import BookingAccess.Proofs.Answers.Inquiry
import BookingAccess.Proofs.Replay
import BookingAccess.Proofs.Transaction.Surroundings

namespace BookingAccess

open Service Manager

variable {manager : ManagerId} {before after service start : Service}
  {earlier past since : List Occurrence} {inquiry : Inquiry}

/-! ### While a transaction is open -/

/-- The event neither begins nor ends a transaction, and no other manager has a part in it. It
changes no group. -/
def Event.isWithin (manager : ManagerId) : Event → Bool
  | .call (.ask _) | .call .clearCache | .outages _ | .graph _ => true
  | .call (.regroup _) => false
  | .call (.manage other task) => other == manager && !task.isBoundary

/-- Unless the cache is cleared, such an event only reads, or it is a call of the manager. -/
theorem quiet_or_task_of_event {occurrence : Occurrence}
    (within : occurrence.event.isWithin manager = true) (noClearing : occurrence.NoClearing) :
    Quiet occurrence.before occurrence.after ∨
      ∃ task, task.isBoundary = false ∧ occurrence.event = .call (.manage manager task) := by
  obtain ⟨before, event⟩ := occurrence
  cases event with
  | outages failing => exact .inl (.of_same rfl rfl rfl rfl rfl rfl)
  | graph objects => exact .inl (.of_same rfl rfl rfl rfl rfl rfl)
  | call made =>
    cases made with
    | ask question => exact .inl (question.keeps.after before)
    | clearCache => exact absurd rfl noClearing
    | regroup change => exact nomatch within
    | manage other task =>
      obtain ⟨own, inside⟩ := Bool.and_eq_true_iff.mp within
      obtain rfl : other = manager := beq_iff_eq.mp own
      exact .inr ⟨task, Bool.not_eq_true' _ ▸ inside, rfl⟩

/-- So it only reads, or it changes nothing but grants. -/
theorem quiet_or_surroundings_of_event {occurrence : Occurrence}
    (within : occurrence.event.isWithin manager = true) (noClearing : occurrence.NoClearing) :
    Quiet occurrence.before occurrence.after ∨
      SameSurroundings occurrence.before occurrence.after :=
  (quiet_or_task_of_event within noClearing).imp_right fun ⟨_, inside, called⟩ =>
    Occurrence.after_eq_of_task called ▸ (Task.manages inside).after _

/-- **No such event changes an answer that goes by a cached projection.** -/
theorem shown_of_event {occurrence : Occurrence}
    (within : occurrence.event.isWithin manager = true)
    (cached : inquiry.isCached occurrence.after = true) :
    inquiry.shown occurrence.after = inquiry.shown occurrence.before := by
  by_cases noClearing : occurrence.NoClearing
  · rcases quiet_or_surroundings_of_event within noClearing with quiet | same
    · exact Inquiry.shown_of_quiet quiet
    · exact Inquiry.shown_of_cached same.cache (Inquiry.isCached_congr same.cache ▸ cached)
  · have cleared : occurrence.after.cache = occurrence.before.cache.clear := by
      unfold Occurrence.after
      rw [Classical.not_not.mp noClearing]
      rfl
    exact absurd cached (ne_true_of_eq_false (Inquiry.isCached_of_cleared cleared))

/-- An answer is the one from the start if it has gone by a cached projection since, or if the store
said so when the projection was loaded. -/
theorem shown_eq_iff_of_run (inquiry : Inquiry) (numbered : start.store.Numbered)
    (run : Run (·.event.isWithin manager = true) start past service) :
    inquiry.shown service = inquiry.shown start ↔
      inquiry.isCached (inquiry.whenLoaded past service) = true ∨
        (inquiry.Stored (inquiry.whenLoaded past service) ↔ inquiry.shown start = true) := by
  have settled : inquiry.shown (inquiry.whenLoaded past service) = inquiry.shown service :=
    Inquiry.shown_whenLoaded (fun _ within cached => shown_of_event within cached) run
  cases cached : inquiry.isCached (inquiry.whenLoaded past service) with
  | true =>
    have unchanged := Inquiry.whenLoaded_eq_start run cached
    exact iff_of_true (settled.symm.trans (congrArg (inquiry.shown ·) unchanged)) (.inl rfl)
  | false =>
    obtain ⟨since, reached⟩ := inquiry.run_whenLoaded run
    rw [← Inquiry.shown_iff_stored (Stays.run reached numbered) cached, settled,
      ← Bool.eq_iff_iff]
    exact ⟨.inr, fun either => either.resolve_left Bool.false_ne_true⟩

/-- The state once the manager has begun. -/
def begun (manager : ManagerId) (before : Service) : Service :=
  (Event.call (.manage manager .begin)).next before

/-- To begin changes no answer. -/
theorem shown_begun (manager : ManagerId) (inquiry : Inquiry) :
    inquiry.shown (begun manager before) = inquiry.shown before := by
  unfold begun
  rcases begin_after manager before with same | ⟨_, opened⟩
  · exact congrArg (inquiry.shown ·) same
  · refine (congrArg (inquiry.shown ·) opened).trans ?_
    cases inquiry <;> rfl

theorem numbered_begun (numbered : before.store.Numbered) :
    (begun manager before).store.Numbered :=
  Stays.event ⟨before, .call (.manage manager .begin)⟩ numbered

/-- **While a transaction is open, an answer is the one from its beginning** if the projection has
been in the cache since, and otherwise if the store, when the projection was loaded, said the same.
-/
theorem answer_eq_iff_of_run (inquiry : Inquiry) (fresh : start.Fresh)
    (reached : Run (fun _ => True) start earlier before)
    (run : Run (·.event.isWithin manager = true) (begun manager before) past service) {first : Bool}
    (answered : (inquiry.answer.run.run before).1 = .ok first) :
    (service.outages = .none → ∃ last, (inquiry.answer.run.run service).1 = .ok last) ∧
    ∀ last, (inquiry.answer.run.run service).1 = .ok last →
      (last = first ↔ inquiry.isCached (inquiry.whenLoaded past service) = true ∨
        (inquiry.Stored (inquiry.whenLoaded past service) ↔ first = true)) := by
  have numbered := Stays.run reached fresh.numbered
  have atFirst := (shown_begun manager inquiry).trans (Inquiry.shown_of_answer answered)
  refine ⟨fun reachable => ⟨_, Inquiry.exists_answer reachable inquiry⟩, fun last now => ?_⟩
  rw [← Inquiry.shown_of_answer now, ← atFirst]
  exact shown_eq_iff_of_run inquiry (numbered_begun numbered) run

/-- A grant is stored, and nobody has asked for the user before. -/
def earlyEvents : List Event := [.call (.manage 0 (.createEntry (.user "1") .sample .reader))]

/-- The user is told of a grant that is not committed. -/
theorem told_after_earlyEvents :
    Service.sample.Fresh ∧
      Run (·.event.isWithin 0 = true) (begun 0 .sample) (replay [] (begun 0 .sample) earlyEvents).1
        (replay [] (begun 0 .sample) earlyEvents).2 ∧
      ((hasUserRole "1" .sample .reader).run.run Service.sample).1 = .ok false ∧
      ((hasUserRole "1" .sample .reader).run.run
        (replay [] (begun 0 .sample) earlyEvents).2).1 = .ok true :=
  ⟨Service.fresh_sample, Run.ofEvents (by decide +kernel), ok_of_toOption (by decide +kernel),
    ok_of_toOption (by decide +kernel)⟩

/-- The projection would be loaded now, from a store that grants more than at the beginning. -/
theorem stored_after_earlyEvents :
    (Inquiry.hasRole "1" .sample .reader).Stored (replay [] (begun 0 .sample) earlyEvents).2 := by
  have first : ((hasUserRole "1" .sample .reader).run.run Service.sample).1 = .ok false :=
    ok_of_toOption (by decide +kernel)
  have last : ((hasUserRole "1" .sample .reader).run.run
      (replay [] (begun 0 .sample) earlyEvents).2).1 = .ok true :=
    ok_of_toOption (by decide +kernel)
  have loaded : (Inquiry.hasRole "1" .sample .reader).whenLoaded
      (replay [] (begun 0 .sample) earlyEvents).1 (replay [] (begun 0 .sample) earlyEvents).2 =
        (replay [] (begun 0 .sample) earlyEvents).2 :=
    if_neg (by decide +kernel)
  have settled := (answer_eq_iff_of_run (.hasRole "1" .sample .reader)
    Service.fresh_sample .start (Run.ofEvents (by decide +kernel)) first).2 true last
  rw [loaded] at settled
  refine Classical.byContradiction fun absent => ?_
  exact nomatch settled.mpr (.inr (iff_of_false absent Bool.false_ne_true))

/-! ### After a rollback -/

/-- Projections stay in the cache, and what they would be loaded from apart from the entries is the
same. -/
structure Retains (before after : Service) : Prop where
  registry : after.registry = before.registry
  directory : after.directory = before.directory
  usersFor : after.usersFor = before.usersFor
  cached : ∀ inquiry : Inquiry, inquiry.isCached before = true → inquiry.isCached after = true

namespace Retains

instance : IsPreorder Service Retains where
  refl _ := ⟨rfl, rfl, rfl, fun _ => id⟩
  trans _ _ _ first second := ⟨second.registry.trans first.registry,
    second.directory.trans first.directory, second.usersFor.trans first.usersFor,
    fun inquiry => second.cached inquiry ∘ first.cached inquiry⟩

theorem ofQuiet (quiet : Quiet before after) : Retains before after :=
  ⟨quiet.registry, quiet.directory, quiet.usersFor_eq, fun _ => Inquiry.isCached_of_quiet quiet⟩

theorem ofSame (registry : after.registry = before.registry)
    (directory : after.directory = before.directory) (cache : after.cache = before.cache) :
    Retains before after := by
  refine ⟨registry, directory, ?_, fun _ held => (Inquiry.isCached_congr cache).trans held⟩
  funext identity
  cases identity with
  | user user => rfl
  | group group =>
    show after.membersFor group = before.membersFor group
    unfold membersFor
    rw [cache, directory]

theorem ofBegin (manager : ManagerId) (before : Service) :
    Retains before (begun manager before) := by
  unfold begun
  rcases begin_after manager before with same | ⟨_, opened⟩
  · exact ofSame (congrArg (·.registry) same) (congrArg (·.directory) same)
      (congrArg (·.cache) same)
  · exact ofSame (congrArg (·.registry) opened) (congrArg (·.directory) opened)
      (congrArg (·.cache) opened)

theorem ofRun (run : Run (fun occurrence => occurrence.event.isWithin manager = true ∧
    occurrence.NoClearing) start past service) : Retains start service := by
  induction run with
  | start => exact refl _
  | next event _ ruled ih =>
    refine IsTrans.trans _ _ _ ih ?_
    rcases quiet_or_surroundings_of_event ruled.1 ruled.2 with quiet | same
    · exact ofQuiet quiet
    · exact ofSame same.registry same.directory same.cache

end Retains

/-- The state once the manager has rolled back. -/
def rolledBack (manager : ManagerId) (service : Service) : Service :=
  (Event.call (.manage manager .rollback)).next service

/-- A rollback closes the transaction and does nothing else. -/
theorem rolledBack_eq (manager : ManagerId) (service : Service) :
    rolledBack manager service = service ∨
      rolledBack manager service = closed manager service := by
  have closes : Ensures (rollback manager) service
      (fun _ after => after = service ∨ after = closed manager service)
      fun _ after => after = service ∨ after = closed manager service :=
    ensures_rollback.mono (fun _ _ => .inr) fun _ _ refused => .inl refused.2
  exact closes.after

theorem surroundings_rolledBack (manager : ManagerId) (service : Service) :
    SameSurroundings service (rolledBack manager service) := by
  rcases rolledBack_eq manager service with same | closed
  · rw [same]
    exact refl _
  · rw [closed]
    exact ⟨rfl, rfl, rfl, rfl, rfl⟩

/-- The state once the store has put its entries and dependencies back to what they were. Numbers
are not given out again. -/
def Service.withGrantsOf (service origin : Service) : Service :=
  { service with store := { service.store with
    entries := origin.store.entries
    dependencies := origin.store.dependencies } }

/-- The event only asks, or it happens outside and touches no grant. -/
def Event.isReading : Event → Bool
  | .call (.ask _) | .outages _ | .graph _ => true
  | _ => false

theorem shown_of_reading (run : Run (·.event.isReading = true) start past service) :
    inquiry.shown service = inquiry.shown start := by
  induction run with
  | start => rfl
  | @next past service event _ reading ih =>
    refine Eq.trans (Inquiry.shown_of_quiet ?_) ih
    cases event with
    | outages failing => exact .of_same rfl rfl rfl rfl rfl rfl
    | graph objects => exact .of_same rfl rfl rfl rfl rfl rfl
    | call made =>
      cases made with
      | ask question => exact question.keeps.after service
      | regroup | clearCache | manage => exact nomatch reading

/-- What is cached stays as it is, and the rest is loaded from the entries that were put back. -/
theorem shown_withGrantsOf (retains : Retains before service) :
    inquiry.shown ((rolledBack manager service).withGrantsOf before) =
      if inquiry.isCached service then inquiry.shown service else inquiry.shown before := by
  have same := surroundings_rolledBack manager service
  have cache : ((rolledBack manager service).withGrantsOf before).cache = service.cache :=
    same.cache
  split
  · exact Inquiry.shown_of_cached cache ‹_›
  · rename_i missed
    have missedBefore : inquiry.isCached before = false :=
      Bool.eq_false_iff.mpr (missed ∘ retains.cached inquiry)
    have restored : Retains before ((rolledBack manager service).withGrantsOf before) :=
      IsTrans.trans _ _ _ retains (.ofSame same.registry same.directory cache)
    exact Inquiry.shown_of_missed restored.registry restored.directory restored.usersFor rfl
      missedBefore ((Inquiry.isCached_congr cache).trans (Bool.eq_false_iff.mpr missed))

/-- **After a rollback that the store goes along with, an answer is the one from the beginning**
unless the projection was loaded while the transaction was open, when the store said something else.
-/
theorem answer_eq_iff_of_rollback (inquiry : Inquiry) (fresh : start.Fresh)
    (reached : Run (fun _ => True) start earlier before)
    (run : Run (fun occurrence => occurrence.event.isWithin manager = true ∧ occurrence.NoClearing)
      (begun manager before) past service)
    (later : Run (·.event.isReading = true)
      ((rolledBack manager service).withGrantsOf before) since after) {first : Bool}
    (answered : (inquiry.answer.run.run before).1 = .ok first) :
    (after.outages = .none → ∃ last, (inquiry.answer.run.run after).1 = .ok last) ∧
    ∀ last, (inquiry.answer.run.run after).1 = .ok last →
      (last = first ↔ (inquiry.isCached service = true →
        inquiry.isCached (inquiry.whenLoaded past service) = true ∨
          (inquiry.Stored (inquiry.whenLoaded past service) ↔ first = true))) := by
  have numbered := Stays.run reached fresh.numbered
  have atFirst := Inquiry.shown_of_answer answered
  have whileOpen := (shown_begun manager inquiry).trans atFirst
  have retains : Retains before service :=
    IsTrans.trans _ _ _ (.ofBegin manager before) (.ofRun run)
  refine ⟨fun reachable => ⟨_, Inquiry.exists_answer reachable inquiry⟩, fun last now => ?_⟩
  rw [← Inquiry.shown_of_answer now, shown_of_reading later, shown_withGrantsOf retains]
  split
  · rename_i cached
    have settled := shown_eq_iff_of_run inquiry (numbered_begun numbered)
      (run.mono fun _ => And.left)
    rw [whileOpen] at settled
    exact settled.trans ⟨fun either _ => either, fun either => either cached⟩
  · rename_i missed
    exact iff_of_true atFirst fun cached => absurd cached missed

/-- The user asks while the grant is stored. -/
def undoneEvents : List Event := [
  .call (.manage 0 (.createEntry (.user "1") .sample .reader)),
  .call (.ask (.hasUserRole "1" .sample .reader))]

/-- The state after a rollback that the store went along with. -/
def Service.restoredSample : Service :=
  (rolledBack 0 (replay [] (begun 0 .sample) undoneEvents).2).withGrantsOf .sample

/-- The user is told of a grant that was rolled back. -/
theorem told_after_undoneEvents :
    Service.sample.Fresh ∧
      Run (fun occurrence => occurrence.event.isWithin 0 = true ∧ occurrence.NoClearing)
        (begun 0 .sample) (replay [] (begun 0 .sample) undoneEvents).1
        (replay [] (begun 0 .sample) undoneEvents).2 ∧
      Service.restoredSample.Idle ∧ Service.restoredSample.store.entryList = [] ∧
      ((hasUserRole "1" .sample .reader).run.run Service.sample).1 = .ok false ∧
      ((hasUserRole "1" .sample .reader).run.run Service.restoredSample).1 = .ok true :=
  ⟨Service.fresh_sample, Run.ofEvents (by decide +kernel), by decide +kernel, by decide +kernel,
    ok_of_toOption (by decide +kernel), ok_of_toOption (by decide +kernel)⟩

/-- The projection was loaded while the transaction was open. -/
theorem cached_after_undoneEvents :
    (Inquiry.hasRole "1" .sample .reader).isCached
      (replay [] (begun 0 .sample) undoneEvents).2 = true := by
  have first : ((hasUserRole "1" .sample .reader).run.run Service.sample).1 = .ok false :=
    ok_of_toOption (by decide +kernel)
  have last : ((hasUserRole "1" .sample .reader).run.run Service.restoredSample).1 = .ok true :=
    ok_of_toOption (by decide +kernel)
  have settled := (answer_eq_iff_of_rollback (.hasRole "1" .sample .reader)
    Service.fresh_sample .start (Run.ofEvents (by decide +kernel)) .start first).2 true last
  refine Classical.byContradiction fun missed => ?_
  exact nomatch settled.mpr fun cached => absurd cached missed

end BookingAccess
