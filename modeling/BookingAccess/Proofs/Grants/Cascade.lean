/-
**What takes a grant away.**

An entry does not remember whether it was granted on its own or followed from another grant, or
both. It stays for as long as a parent entry keeps it. So a grant that a caller was given goes with
a deletion that is aimed at it, or with one that comes to it from an entry it depends on and leaves
it no parent.

* `Occurrence.Sweeps`: the call sweeps the entry;
* `coherent_and_sweeps`: whatever goes with a call is swept;
* `granted_until_swept`: a grant that was given back goes only by being swept.
-/

import BookingAccess.Proofs.Replay
import BookingAccess.Proofs.Store.Reach

namespace BookingAccess

open Service Manager Store

variable {manager : ManagerId} {before after service start : Service} {past : List Occurrence}
  {occurrence : Occurrence} {entry : Entry}

/-- The manager revokes, and is aiming at the entry. -/
def Event.AimsAt (manager : ManagerId) (event : Event) (entry : Entry) : Prop :=
  ∃ task deletion, event = .call (.manage manager task) ∧
    task.deletion? = some deletion ∧ deletion.aims entry

/-- The manager revokes, and that sweeps the entry. -/
def Occurrence.Sweeps (manager : ManagerId) (occurrence : Occurrence) (entry : Entry) : Prop :=
  ∃ task deletion detaches, occurrence.event = .call (.manage manager task) ∧
    task.deletion? = some deletion ∧
    Swept occurrence.before.store occurrence.after.store deletion detaches entry

/-! ### One event -/

namespace Manager.Coherent

variable {other : ManagerId}

/-- Opening a transaction leaves nothing added in it. -/
theorem opened (coherent : Coherent manager service) : Coherent manager (opened other service) := by
  refine ⟨coherent.numbered, coherent.anchored, fun sets opened id entry found => ?_⟩
  have opened : (service.transactions.insert other .empty)[manager]? = some sets := opened
  rw [OrderedMap.lookup_insert] at opened
  split at opened
  · obtain rfl := Option.some.inj opened
    simp [WorkingSets.empty] at found
  · exact coherent.added sets opened id entry found

theorem closed (coherent : Coherent manager service) : Coherent manager (closed other service) := by
  refine ⟨coherent.numbered, coherent.anchored, fun sets opened id entry found => ?_⟩
  have opened : (service.transactions.erase other)[manager]? = some sets := opened
  rw [OrderedMap.lookup_erase] at opened
  split at opened
  · cases opened
  · exact coherent.added sets opened id entry found

theorem revoking {deletion : Deletion} {agreed : Prop} (coherent : Coherent manager before)
    (revoking : Revoking manager before.store deletion agreed before after) :
    Coherent manager after :=
  have intact := Revoked.intact revoking.revoked coherent.numbered coherent.anchored
  ⟨intact.1, intact.2, revoking.added coherent.added⟩

end Manager.Coherent

/-- **An event leaves the store coherent and sweeps whatever entry goes with it**, while nobody but
this manager is called. -/
theorem coherent_and_sweeps (coherent : Coherent manager occurrence.before)
    (managed : occurrence.ManagedBy manager) :
    Coherent manager occurrence.after ∧ ∀ entry, occurrence.before.store.Holds entry →
      ¬ occurrence.after.store.Holds entry → occurrence.Sweeps manager entry := by
  have unchanged (same : occurrence.after.store = occurrence.before.store) (entry : Entry)
      (held : occurrence.before.store.Holds entry)
      (gone : ¬ occurrence.after.store.Holds entry) : occurrence.Sweeps manager entry :=
    absurd (same ▸ held) gone
  cases kind_of_event occurrence with
  | steady steady => exact ⟨coherent.steady steady, unchanged steady.store⟩
  | opened other _ _ steady => exact ⟨coherent.opened.steady steady, unchanged steady.store⟩
  | closed other steady => exact ⟨coherent.closed.steady steady, unchanged steady.store⟩
  | granting other task called isGrant =>
    obtain rfl := managed other task called
    have grows : Growing other occurrence.before occurrence.after := by
      rw [Occurrence.after_eq_of_task called]
      exact (task.grants isGrant).after occurrence.before
    exact ⟨grows.coherent coherent, fun entry held gone =>
      absurd (grows.kept coherent entry held) gone⟩
  | revoking other task deletion called isDeletion =>
    obtain rfl := managed other task called
    have revokes := (task.revokes isDeletion coherent.numbered fun _ seen =>
      (coherent.holds seen).agrees).after
    rw [← Occurrence.after_eq_of_task called] at revokes
    refine ⟨coherent.revoking revokes, fun entry held gone => ?_⟩
    obtain ⟨detaches, swept⟩ := Revoked.swept coherent.numbered coherent.anchored revokes.revoked
      held gone
    exact ⟨task, deletion, detaches, called, isDeletion, swept⟩

/-! ### Runs -/

theorem coherent_of_run (coherent : Coherent manager start)
    (run : Run (·.ManagedBy manager) start past service) :
    Coherent manager service ∧ ∀ occurrence ∈ past,
      occurrence.ManagedBy manager ∧ Coherent manager occurrence.before := by
  induction run with
  | start => exact ⟨coherent, fun _ never => nomatch never⟩
  | next event kept managed ih =>
    refine ⟨(coherent_and_sweeps ih.1 managed).1, ?_⟩
    rintro occurrence (_ | ⟨_, earlier⟩)
    · exact ⟨managed, ih.1⟩
    · exact ih.2 occurrence earlier

/-- **A grant that one manager was given back is stored, and goes only by being swept**: by a call
that is aimed at it, or by one that comes to it from an entry it depends on and leaves it no parent.
Calls may be handed any entries. -/
theorem granted_until_swept {granting granted : Service} {later : List Occurrence}
    {identity : Identity} {object : ObjectRef} {role : Role} (intact : start.store.Intact)
    (idle : start.Idle) (toGrant : Run (·.ManagedBy manager) start past granting)
    (answered : (Manager.createEntry manager identity object role).run.run granting =
      (.ok (some entry), granted))
    (onward : Run (·.ManagedBy manager) granted later service) :
    (granted.store.Holds entry ∧
      entry.identity = identity ∧ entry.object = object ∧ entry.role = role) ∧
    ∀ occurrence ∈ later, occurrence.before.store.Holds entry →
      ¬ occurrence.after.store.Holds entry → occurrence.Sweeps manager entry := by
  have idle : Coherent manager start := ⟨intact.numbered, intact.anchored,
    fun _ opened => nomatch (idle manager).symm.trans opened⟩
  have coherent := (coherent_of_run idle toGrant).1
  obtain ⟨grows, given⟩ := (ensures_createEntry coherent).of_ok answered
  refine ⟨given entry rfl, fun occurrence member held gone => ?_⟩
  have along := (coherent_of_run (grows.coherent coherent) onward).2
  obtain ⟨managed, coherent⟩ := along occurrence member
  exact (coherent_and_sweeps coherent managed).2 entry held gone

/-- A user gets a role on the whole, which propagates to the part. -/
def inheritedEvents : List Event := [
  .call (.manage 0 .begin),
  .call (.manage 0 (.createEntry (.user "1") .sample .reader))]

/-- The same role on the part is found, and goes when the one on the whole is deleted. -/
theorem swept_after_inheritedEvents : ∃ granted,
    Service.sampleWithPart.store.Intact ∧ Service.sampleWithPart.Idle ∧
    (∀ occurrence ∈ (replay [] .sampleWithPart inheritedEvents).1, occurrence.ManagedBy 0) ∧
    (Manager.createEntry 0 (.user "1") .part .reader).run.run
      (replay [] .sampleWithPart inheritedEvents).2 =
        (.ok (some ⟨2, .user "1", .part, .reader⟩), granted) ∧
    granted.store.Holds ⟨2, .user "1", .part, .reader⟩ ∧
    Occurrence.Sweeps 0 ⟨granted, .call (.manage 0
      (.deleteEntry ⟨1, .user "1", .sample, .reader⟩ false))⟩ ⟨2, .user "1", .part, .reader⟩ := by
  have idle : Service.sampleWithPart.Idle := by decide +kernel
  have managed : ∀ occurrence ∈ (replay [] .sampleWithPart inheritedEvents).1,
      occurrence.ManagedBy 0 := by decide +kernel
  have answered : ((Manager.createEntry 0 (.user "1") .part .reader).run.run
      (replay [] .sampleWithPart inheritedEvents).2).1 =
        .ok (some ⟨2, .user "1", .part, .reader⟩) := ok_of_toOption (by decide +kernel)
  have gone : ¬ ((Event.call (.manage 0 (.deleteEntry ⟨1, .user "1", .sample, .reader⟩ false))).next
      ((Manager.createEntry 0 (.user "1") .part .reader).run.run
        (replay [] .sampleWithPart inheritedEvents).2).2).store.Holds
          ⟨2, .user "1", .part, .reader⟩ := by decide +kernel
  have run : Run (·.ManagedBy 0) .sampleWithPart (replay [] .sampleWithPart inheritedEvents).1
      (replay [] .sampleWithPart inheritedEvents).2 := .ofEvents managed
  rcases outcome : (Manager.createEntry 0 (.user "1") .part .reader).run.run
    (replay [] .sampleWithPart inheritedEvents).2 with ⟨answer, granted⟩
  rw [outcome] at answered gone
  subst answered
  have deletes : Run (·.ManagedBy 0) granted
      [⟨granted, .call (.manage 0 (.deleteEntry ⟨1, .user "1", .sample, .reader⟩ false))⟩] _ :=
    .next _ .start fun _ _ called => by cases called; rfl
  obtain ⟨⟨held, -⟩, swept⟩ := granted_until_swept .empty idle run outcome deletes
  exact ⟨granted, .empty, idle, managed, rfl, held, swept _ (.head _) held gone⟩

/-- A user gets a role on the part, and then the same on the whole, which propagates to the part.
The second grant is deleted again. -/
def doubledEvents : List Event := [
  .call (.manage 0 .begin),
  .call (.manage 0 (.createEntry (.user "1") .part .reader)),
  .call (.manage 0 (.createEntry (.user "1") .sample .reader)),
  .call (.manage 0 (.deleteEntry ⟨2, .user "1", .sample, .reader⟩ false))]

/-- **A grant can go without a deletion that is aimed at it**: by now another grant has become a
parent of it, and it goes with that. -/
theorem lost_after_doubledEvents :
    (∀ occurrence ∈ (replay [] .sampleWithPart doubledEvents).1, occurrence.ManagedBy 0) ∧
    ((Manager.createEntry 0 (.user "1") .part .reader).run.run
      (replay [] .sampleWithPart (doubledEvents.take 1)).2).1 =
        .ok (some ⟨1, .user "1", .part, .reader⟩) ∧
    (replay [] .sampleWithPart (doubledEvents.take 2)).2.store.Holds
      ⟨1, .user "1", .part, .reader⟩ ∧
    ¬ (replay [] .sampleWithPart doubledEvents).2.store.Holds ⟨1, .user "1", .part, .reader⟩ ∧
    ∀ event ∈ doubledEvents, ¬ event.AimsAt 0 ⟨1, .user "1", .part, .reader⟩ := by
  refine ⟨by decide +kernel, ok_of_toOption (by decide +kernel), by decide +kernel,
    by decide +kernel, ?_⟩
  rintro event member ⟨task, deletion, rfl, isDeletion, aimed⟩
  simp only [doubledEvents, List.mem_cons, Event.call.injEq, Call.manage.injEq, true_and,
    List.not_mem_nil, or_false] at member
  rcases member with rfl | rfl | rfl | rfl
  · exact nomatch isDeletion
  · exact nomatch isDeletion
  · exact nomatch isDeletion
  · obtain rfl := Option.some.inj isDeletion
    have same : (1 : EntryId) = 2 := aimed
    exact nomatch same

end BookingAccess
