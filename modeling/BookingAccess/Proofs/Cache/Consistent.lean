/-
**Services in order.**

The store, the transactions and the cache keep to what was given out, whatever happens, transactions
that are rolled back included. What the cache misses or remembers in vain does not matter here.

* `Regular`: what is expected of an event;
* `Consistent`: what is kept; `Consistent.task`, `Consistent.event`: by calls and by events;
* `consistent_of_run`: so it holds after every run.
-/

import BookingAccess.Proofs.Cache.Runs
import BookingAccess.Proofs.Transaction.Surroundings

namespace BookingAccess

open Service Manager

variable {given : EntryId → Option Entry} {manager : ManagerId}
  {before after service start : Service} {occurrence : Occurrence} {past : List Occurrence}

/-- Entries are handed over as they are stored, commits are answered, and groups are changed in a
sound directory only. -/
structure Regular (occurrence : Occurrence) : Prop where
  agree : occurrence.EntriesAgree
  answered : occurrence.CommitsAnswered
  sound : ∀ change, occurrence.event = .call (.regroup change) → occurrence.before.directory.Sound

/-- The service keeps to what was given out. -/
structure Consistent (given : EntryId → Option Entry) (service : Service) : Prop where
  ledger : Ledger given service
  tidy : Tidy given service

namespace Consistent

theorem ofFresh (fresh : start.Fresh) : Consistent start.store.get? start :=
  have ledger := ledger_of_start fresh.numbered fresh.idle
  ⟨ledger, .ofBlank ledger (fresh.cache ▸ blank_empty)⟩

theorem ofRested (rested : Rested given before after) : Consistent given after :=
  ⟨rested.ledger, rested.tidy⟩

theorem quiet (consistent : Consistent given before) (quiet : Quiet before after) :
    Consistent given after :=
  .ofRested (.ofQuiet consistent.ledger consistent.tidy quiet)

theorem closed (consistent : Consistent given service) :
    Consistent given (Manager.closed manager service) :=
  ⟨consistent.ledger.closed, closed_tidy consistent.tidy⟩

theorem committed {sets : WorkingSets} (consistent : Consistent given before)
    (committed : Committed given manager sets before after) : Consistent given after where
  ledger := consistent.ledger.closed.untouched committed.untouched
  tidy := committed.reworked.tidy

/-- **A call of a manager inside a transaction** gives out only what is stored when it ends. -/
theorem task {task : Task} (consistent : Consistent given service)
    (inside : task.isBoundary = false)
    (agree : ∀ entry ∈ task.arguments, service.store.Agrees entry) :
    ∃ aim more, Writes manager aim service ((task.action manager).run.run service).2 ∧
      Extends given more ∧ Consistent more ((task.action manager).run.run service).2 ∧
      ∀ id entry, more id = some entry →
        given id = some entry ∨ ((task.action manager).run.run service).2.store.Holds entry := by
  have ledger := consistent.ledger
  have same : SameSurroundings service ((task.action manager).run.run service).2 :=
    (Task.manages inside).after service
  obtain ⟨aim, writes⟩ := task.writes inside ledger.numbered agree fun _ => ledger.agrees_seen
  obtain ⟨more, extends', ledger, newlyGiven⟩ := ledger.writes writes
  have tidy := consistent.tidy.ofLedger ledger extends' same.registry same.directory same.cache
  exact ⟨aim, more, writes, extends', ⟨ledger, tidy⟩,
    fun id entry known => (newlyGiven id entry known).imp_right And.right⟩

theorem begin (consistent : Consistent given before) :
    Consistent given ((begin manager).run.run before).2 := by
  rcases begin_after manager before with same | ⟨absent, opened⟩
  · rw [same]
    exact consistent
  · rw [opened]
    exact .ofRested (.ofOpened consistent.ledger consistent.tidy absent)

theorem commit (consistent : Consistent given before)
    (answered : Occurrence.CommitsAnswered ⟨before, .call (.manage manager .commit)⟩) :
    Consistent given ((commit manager).run.run before).2 := by
  cases opened : before.transactions[manager]? with
  | none =>
    have same : ((Manager.commit manager).run.run before).2 = before :=
      ((ensures_commit_closed opened).mono (fun _ _ => False.elim) fun _ _ => And.right).after
    rw [same]
    exact consistent
  | some sets =>
    exact consistent.committed
      (committed_of_event consistent.ledger consistent.tidy answered rfl opened)

theorem rollback (consistent : Consistent given before) :
    Consistent given ((rollback manager).run.run before).2 := by
  have closes : Ensures (Manager.rollback manager) before
      (fun _ => Consistent given) fun _ => Consistent given :=
    ensures_rollback.mono (fun _ _ closes => closes ▸ consistent.closed)
      fun _ _ refused => refused.2 ▸ consistent
  exact closes.after

/-- **Every event keeps the service in order.** -/
theorem event (consistent : Consistent given occurrence.before) (regular : Regular occurrence) :
    ∃ more, Consistent more occurrence.after := by
  have ledger := consistent.ledger
  have tidy := consistent.tidy
  obtain ⟨before, event⟩ := occurrence
  cases event with
  | outages failing => exact ⟨given, consistent.quiet (.of_same rfl rfl rfl rfl rfl rfl)⟩
  | graph objects => exact ⟨given, consistent.quiet (.of_same rfl rfl rfl rfl rfl rfl)⟩
  | call made =>
    cases made with
    | ask question => exact ⟨given, consistent.quiet (question.keeps.after before)⟩
    | regroup change =>
      have regroups := ensures_regroup tidy (regular.sound change rfl) change
      exact ⟨given, .ofRested (.ofRegroups ledger tidy regroups)⟩
    | clearCache => exact ⟨given, .ofRested (.ofCleared ledger)⟩
    | manage manager task =>
      cases boundary : task.isBoundary with
      | false =>
        obtain ⟨_, more, _, _, later, _⟩ :=
          consistent.task boundary (regular.agree manager task rfl)
        exact ⟨more, later⟩
      | true =>
        cases task with
        | begin => exact ⟨given, consistent.begin⟩
        | commit => exact ⟨given, consistent.commit regular.answered⟩
        | rollback => exact ⟨given, consistent.rollback⟩
        | _ => exact nomatch boundary

end Consistent

/-- **After a run the service is in order.** -/
theorem consistent_of_run (fresh : start.Fresh) (run : Run Regular start past service) :
    ∃ given, Consistent given service := by
  induction run with
  | start => exact ⟨_, .ofFresh fresh⟩
  | next event _ regular ih =>
    obtain ⟨given, consistent⟩ := ih
    exact consistent.event regular

end BookingAccess
