/-
**A grant that is created and deleted in one transaction.**

A grant that was not there before is stored with everything that follows from it. If no grant that
follows comes back to itself, and whatever was there already is upheld by a parent of its own, then
deleting it again takes away all of this and nothing else. The commit leaves every answer as it was,
whatever was asked in between.

* `undone_deleteEntry`: the deletion restores the store;
* `createEntry_deleteEntry_restores`: the transaction restores the store and the answers.
-/

import BookingAccess.Proofs.Answers.Restored
import BookingAccess.Proofs.Transaction.Alone
import BookingAccess.Proofs.Transaction.Felling
import BookingAccess.Proofs.Transaction.Spreading

namespace BookingAccess

open Service Manager Store

variable {manager : ManagerId} {identity : Identity} {object : ObjectRef} {role : Role}
  {before granting service start : Service} {origin : Store} {root : Entry}
  {earlier asked past : List Occurrence}

/-! ### What is asked in between -/

/-- Somebody asks the service something. -/
def Event.isQuestion : Event → Bool
  | .call (.ask _) => true
  | _ => false

/-- Questions are no part of the transaction. -/
theorem Occurrence.Inside.ofQuestion {occurrence : Occurrence}
    (asks : occurrence.event.isQuestion = true) : occurrence.Inside manager := by
  obtain ⟨before, event⟩ := occurrence
  match event, asks with
  | .call (.ask question), _ => exact ⟨rfl, nofun, nofun⟩

/-- They leave the store, the transactions and the world around the service as they are. -/
theorem still_of_questions (run : Run (·.event.isQuestion = true) start asked service) :
    Steady start service ∧ SameWorld start service := by
  induction run with
  | start => exact ⟨refl _, refl _⟩
  | @next past service event _ asks ih =>
    have step : Steady service (event.next service) ∧ SameWorld service (event.next service) := by
      match event, asks with
      | .call (.ask question), _ =>
        exact ⟨question.keeps.after service, question.keeps.after service⟩
    exact ⟨IsTrans.trans _ _ _ ih.1 step.1, IsTrans.trans _ _ _ ih.2 step.2⟩

/-- A call whose answer is of no interest. -/
theorem next_of_task {task : Task} {service after : Service} {α : Type} {action : Action α}
    {value : α} (silent : task.action manager = action.silent)
    (result : action.run.run service = (.ok value, after)) :
    (Event.call (.manage manager task)).next service = after := by
  show ((task.action manager).run.run service).2 = after
  have ends : Ensures action service (fun _ later => later = after) fun _ _ => False := by
    unfold Ensures
    rw [result]
  rw [silent]
  exact (ensures_map.mpr (ends.mono (fun _ _ => id) fun _ _ => False.elim)).after

/-! ### The transaction -/

/-- A transaction that has done nothing yet. -/
theorem calm_begun (intact : before.store.Intact) (reachable : before.outages = .none) :
    Calm manager (opened manager before) :=
  have settled := Settled.ofOpened intact.numbered
  ⟨reachable, isOpen_of_some ((OrderedMap.lookup_insert ..).trans (if_pos rfl)), intact,
    settled.added, settled.removed⟩

/-- **Deleting what has grown restores the store.** -/
theorem undone_deleteEntry {registry : Registry} {graph : ObjectGraph}
    (calm : Calm manager service) (intact : origin.Intact)
    (grown : Grown registry graph origin root service.store)
    (acyclic : Acyclic registry graph origin root.identity root.grant)
    (supported : Supported registry graph origin root.identity root.grant) :
    Ensures (deleteEntry manager root false) service
      (fun _ after => after.store.entries = origin.entries ∧
        after.store.dependencies = origin.dependencies ∧ Unhindered manager after)
      fun _ _ => False := by
  have revokes : KeepsAt (Revoking manager service.store (.ofEntry root.id false)
      (service.store.Agrees root)) service (deleteEntry manager root false) :=
    revokes_deleteEntry calm.intact.numbered
  refine ((fells_deleteEntry calm.unhindered grown.held false).and revokes).mono ?_ ?_
  · rintro _ after ⟨⟨atAfter, fells, -⟩, revoking⟩
    obtain ⟨pruned, gone⟩ := fells.pruned calm.intact.anchored
    have pruned : Pruned (fun _ => False) service.store after.store :=
      pruned.mono fun _ spares => (nomatch spares.2.2)
    obtain ⟨entries, dependencies⟩ :=
      grown.restored intact acyclic supported pruned revoking.revoked gone
    exact ⟨entries, dependencies, atAfter⟩
  · rintro _ _ ⟨⟨-, referenced⟩, -⟩
    exact grown.notChild intact acyclic referenced.held

/-- One more call of the manager. -/
theorem run_of_task (task : Task) {after : Service} {α : Type} {action : Action α} {value : α}
    (run : Run (Occurrence.Inside manager) start past service)
    (inside : task.isBoundary = false)
    (agree : ∀ entry ∈ task.arguments, service.store.Agrees entry)
    (silent : task.action manager = action.silent)
    (result : action.run.run service = (.ok value, after)) :
    ∃ past, Run (Occurrence.Inside manager) start past after := by
  rw [← next_of_task silent result]
  refine ⟨_, .next _ run ⟨?_, nofun, ?_⟩⟩
  · show (manager == manager && !task.isBoundary) = true
    rw [beq_self_eq_true, inside]
    rfl
  · rintro _ _ ⟨⟩
    exact agree

/-- **A grant that is created and deleted in one transaction leaves nothing.** The grant is created
exactly if it is not one to root and the class of the object has the role. Then its deletion
succeeds and gives the store its entries and dependencies back, and the commit leaves every answer
as it was before the transaction. -/
theorem createEntry_deleteEntry_restores (fresh : start.Fresh) (intact : start.store.Intact)
    (reached : Run Regular start earlier before)
    (idle : before.transactions[manager]? = none) (reachable : before.outages = .none)
    (absent : before.store.find? identity object role = none)
    (acyclic : Acyclic before.registry before.graph before.store identity ⟨object, role⟩)
    (supported : Supported before.registry before.graph before.store identity ⟨object, role⟩)
    (first : Run (·.event.isQuestion = true) (begun manager before) asked granting) :
    ((∃ root granted, (createEntry manager identity object role).run.run granting =
        (.ok (some root), granted)) ↔
      identity.isRoot = false ∧ before.registry.allows object.objectClass role = true) ∧
    ∀ root granted, (createEntry manager identity object role).run.run granting =
        (.ok (some root), granted) →
      ∀ askedGranted deleting, Run (·.event.isQuestion = true) granted askedGranted deleting →
        ∃ outcome deleted, (deleteEntry manager root false).run.run deleting =
            (.ok outcome, deleted) ∧
          deleted.store.entries = before.store.entries ∧
          deleted.store.dependencies = before.store.dependencies ∧
          ∀ askedDeleted committing,
            Run (·.event.isQuestion = true) deleted askedDeleted committing →
            ∃ after, (commit manager).run.run committing = (.ok (), after) ∧
              ∀ inquiry : Inquiry, ∃ answer, (inquiry.answer.run.run before).1 = .ok answer ∧
                (inquiry.answer.run.run after).1 = .ok answer := by
  obtain ⟨given, consistent⟩ := consistent_of_run fresh reached
  have intact : before.store.Intact := Stays.run reached intact
  obtain ⟨steady, world⟩ := still_of_questions first
  rw [begun_eq idle] at steady world
  have calm : Calm manager granting := (calm_begun intact reachable).steady steady world
  have store : granting.store = before.store := steady.store
  have registry : granting.registry = before.registry := steady.registry
  have graph : granting.graph = before.graph := world.graph
  rw [← registry]
  refine ⟨exists_created_iff calm (store ▸ absent), fun root granted created => ?_⟩
  rcases (spreads_createEntry calm (store ▸ absent)).of_ok created with
    ⟨-, nothing⟩ | ⟨-, _, same, sprouts⟩
  · exact nomatch nothing
  obtain rfl := Option.some.inj same
  obtain ⟨rfl, isGrant, grown, -, -, -, atGranted⟩ := sprouts
  rw [registry, graph, store] at grown
  rw [← isGrant] at acyclic supported
  -- The deletion.
  intro askedGranted deleting second
  obtain ⟨steady, world⟩ := still_of_questions second
  have atDeleting := atGranted.steady steady world
  rw [← steady.store] at grown
  obtain ⟨outcome, deletes, entries, dependencies, atDeleted⟩ :=
    (undone_deleteEntry atDeleting intact grown acyclic supported).exists_answer
  refine ⟨outcome, _, Prod.ext deletes rfl, entries, dependencies, ?_⟩
  -- The commit.
  intro askedDeleted committing third
  obtain ⟨steady, world⟩ := still_of_questions third
  have questions {start service : Service} {asked : List Occurrence}
      (run : Run (·.event.isQuestion = true) start asked service) :
      Run (Occurrence.Inside manager) start asked service :=
    run.mono fun _ => .ofQuestion
  obtain ⟨_, run⟩ := run_of_task (.createEntry root.identity object role) (questions first)
    rfl nofun rfl created
  obtain ⟨_, run⟩ := run_of_task (.deleteEntry root false) (run.trans (questions second))
    rfl (by simpa [Task.arguments] using grown.held.agrees) rfl (Prod.ext deletes rfl)
  obtain ⟨committed, answers⟩ := same_answers_of_restored consistent idle
    (run.trans (questions third)) (steady.store ▸ entries) reachable
    (world.outages.trans atDeleted.reachable)
  exact ⟨_, Prod.ext committed rfl, answers⟩

/-- Propagation goes from the sample object to its part and no further. -/
theorem objects_of_passes {parent child : Grant}
    (passes : Passes Service.sampleWithPart.registry Service.sampleWithPart.graph origin identity
      parent child) : parent.object = .sample ∧ child.object = .part := by
  obtain ⟨-, kind, -, rule, -, -, isChild, -⟩ := passes
  rw [ObjectGraph.mem_children] at isChild
  obtain ⟨isParent, -, isPart⟩ := Link.mk.inj (List.mem_singleton.mp isChild)
  exact ⟨isParent, isPart⟩

/-- A grant that reaches the part is asked for, deleted and forgotten. -/
theorem sampleWithPart_restored :
    Service.sampleWithPart.Fresh ∧ Service.sampleWithPart.store.Intact ∧
    ∃ root granted, (createEntry 0 (.user "1") .sample .reader).run.run (begun 0 .sampleWithPart) =
        (.ok (some root), granted) ∧ granted.store.entryList.length = 2 ∧
      ∃ outcome deleted, (deleteEntry 0 root false).run.run
          ((Event.call (.ask (.hasUserRole "1" .part .reader))).next granted) =
            (.ok outcome, deleted) ∧
        deleted.store.entries = Service.sampleWithPart.store.entries ∧
        ∃ after, (commit 0).run.run deleted = (.ok (), after) ∧
          ∀ inquiry : Inquiry, ∃ answer,
            (inquiry.answer.run.run Service.sampleWithPart).1 = .ok answer ∧
              (inquiry.answer.run.run after).1 = .ok answer := by
  have fresh : Service.sampleWithPart.Fresh :=
    ⟨rfl, by decide +kernel, Service.fresh_sample.numbered⟩
  have acyclic : Acyclic Service.sampleWithPart.registry Service.sampleWithPart.graph
      Service.sampleWithPart.store (.user "1") ⟨.sample, .reader⟩ := by
    intro reached _ cycle
    obtain ⟨_, first, _⟩ := Relation.TransGen.head'_iff.mp cycle
    obtain ⟨_, _, last⟩ := Relation.TransGen.tail'_iff.mp cycle
    cases (objects_of_passes first).1.symm.trans (objects_of_passes last).2
  have supported : Supported Service.sampleWithPart.registry Service.sampleWithPart.graph
      Service.sampleWithPart.store (.user "1") ⟨.sample, .reader⟩ :=
    fun _ holds => absurd (Std.ExtTreeMap.getElem?_empty.symm.trans holds) (by simp)
  have idle : Service.sampleWithPart.transactions[(0 : ManagerId)]? = none := fresh.idle 0
  have restores := createEntry_deleteEntry_restores fresh .empty .start idle rfl
    (by decide +kernel) acyclic supported .start
  obtain ⟨root, granted, created⟩ := restores.1.mpr (by decide +kernel)
  have two : ((createEntry 0 (.user "1") .sample .reader).run.run
      (begun 0 .sampleWithPart)).2.store.entryList.length = 2 := by decide +kernel
  rw [created] at two
  obtain ⟨outcome, deleted, deletes, entries, -, commits⟩ :=
    restores.2 root granted created _ _ (.next (.call (.ask (.hasUserRole "1" .part .reader)))
      .start rfl)
  obtain ⟨after, committed, answers⟩ := commits _ _ .start
  exact ⟨fresh, .empty, root, granted, created, two, outcome, deleted, deletes, entries, after,
    committed, answers⟩

end BookingAccess
