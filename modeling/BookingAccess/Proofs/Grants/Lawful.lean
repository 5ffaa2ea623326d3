/-
**The store stays lawful.**

However many managers grant and revoke, and wherever their calls fail, the store holds only what the
registry allows. The entries that callers hand over have to be entries that the store holds or once
held: an entry that somebody made up could pass on a grant that nobody was given.

* `EntriesHeld`: the rule for the entries that are handed over;
* `StoreEffect`, `effect_of_event`: an event grants, revokes, or leaves the store as it is;
* `Proper`, `proper_of_run`: what holds along a run;
* `lawful_of_run`: the store after any run.
-/

import BookingAccess.Proofs.Replay
import BookingAccess.Proofs.Transaction.Ledger
import BookingAccess.Proofs.Transaction.Linking

namespace BookingAccess

open Service Manager Store

variable {given : EntryId → Option Entry} {manager : ManagerId} {registry : Registry}
  {before after service start : Service} {past : List Occurrence} {occurrence : Occurrence}

/-! ### Entries that are handed over -/

/-- The caller hands over entries of this kind only. -/
def Occurrence.Hands (known : Entry → Prop) (occurrence : Occurrence) : Prop :=
  ∀ manager task, occurrence.event = .call (.manage manager task) →
    ∀ entry ∈ task.arguments, known entry

theorem Occurrence.hands_iff {known : Entry → Prop} : occurrence.Hands known ↔
    ∀ call ∈ occurrence.task?, ∀ entry ∈ call.2.arguments, known entry := by
  rw [← forall_task_iff]
  exact Iff.rfl

instance {known : Entry → Prop} [DecidablePred known] : Decidable (occurrence.Hands known) :=
  decidable_of_iff' _ Occurrence.hands_iff

/-- Every entry that was handed over was stored at that time or before. -/
def EntriesHeld : List Occurrence → Prop
  | [] => True
  | occurrence :: past =>
    occurrence.Hands (fun entry =>
      ∃ earlier ∈ occurrence :: past, earlier.before.store.Holds entry) ∧ EntriesHeld past

instance decidableEntriesHeld : (past : List Occurrence) → Decidable (EntriesHeld past)
  | [] => .isTrue trivial
  | _ :: past =>
    have := decidableEntriesHeld past
    inferInstanceAs (Decidable (_ ∧ _))

/-- What was stored at some time was given out. -/
theorem Accounted.hands (accounted : Accounted given past occurrence.before)
    (held : EntriesHeld (occurrence :: past)) :
    occurrence.Hands fun entry => given entry.id = some entry := by
  intro manager task called entry argument
  obtain ⟨earlier, member, holds⟩ := held.1 manager task called entry argument
  rcases List.mem_cons.mp member with rfl | member
  · exact accounted.stored holds
  · exact accounted.held earlier member holds

namespace Ledger

theorem knows (ledger : Ledger given service) {entry : Entry}
    (isGiven : given entry.id = some entry) : service.store.Knows entry :=
  ⟨ledger.bound isGiven, ledger.agrees isGiven⟩

theorem surveyed (ledger : Ledger given service) (opened : IsOpen manager service) :
    Surveyed manager service :=
  ⟨opened, ledger.numbered, fun sets opened _ added =>
    ledger.knows (ledger.given_of_seen (.inr ⟨sets, opened, added⟩))⟩

theorem entriesAgree (ledger : Ledger given occurrence.before)
    (handed : occurrence.Hands fun entry => given entry.id = some entry) :
    occurrence.EntriesAgree := fun manager task called entry argument =>
  ledger.agrees (handed manager task called entry argument)

end Ledger

/-! ### Events -/

/-- What an event does to the store. Nothing is granted to root. -/
inductive StoreEffect (occurrence : Occurrence) : Prop
  | same : occurrence.after.store = occurrence.before.store → StoreEffect occurrence
  | granted : Store.Granted occurrence.before.registry (·.isRoot = false) occurrence.before.store
      occurrence.after.store → StoreEffect occurrence
  | revoked (deletion : Deletion) :
      Revoked occurrence.before.store deletion occurrence.before.store occurrence.after.store →
      StoreEffect occurrence

/-- **An event grants, revokes, or leaves the store as it is**, if the entries that are handed over
were given out, and none to root. -/
theorem effect_of_event (ledger : Ledger given occurrence.before)
    (notRoot : ∀ id entry, given id = some entry → entry.identity.isRoot = false)
    (handed : occurrence.Hands fun entry => given entry.id = some entry) :
    StoreEffect occurrence := by
  cases kind_of_event occurrence with
  | steady steady => exact .same steady.store
  | opened manager _ _ steady => exact .same steady.store
  | closed manager steady => exact .same steady.store
  | granting manager task called isGrant =>
    have handed := handed manager task called
    have surveyed : IsOpen manager occurrence.before → Surveyed manager occurrence.before :=
      ledger.surveyed
    refine .granted ?_
    rw [Occurrence.after_eq_of_task called]
    cases task with
    | createEntry identity object role => exact (grants_createEntry surveyed id).map.after.granted
    | propagateToChild parent child role kind =>
      have isGiven := handed parent (.head _)
      exact (grants_propagateToChild surveyed (ledger.knows isGiven)
        (notRoot _ _ isGiven)).map.after.granted
    | createEntriesForChild parent child =>
      exact (grants_createEntriesForChild surveyed fun entry seen =>
        notRoot _ _ (ledger.given_of_seen seen)).map.after.granted
    | _ => exact nomatch isGrant
  | revoking manager task deletion called isDeletion =>
    refine .revoked deletion ?_
    rw [Occurrence.after_eq_of_task called]
    exact (task.revokes isDeletion ledger.numbered fun _ => ledger.agrees_seen).after.revoked

/-! ### Runs -/

/-- The store is lawful, and whatever was ever given out is accounted for and was not given to
root. -/
structure Proper (registry : Registry) (given : EntryId → Option Entry) (past : List Occurrence)
    (service : Service) : Prop extends Accounted given past service where
  same : service.registry = registry
  lawful : service.store.Lawful registry
  notRoot : ∀ id entry, given id = some entry → entry.identity.isRoot = false

/-- One event more. -/
theorem Proper.next (proper : Proper registry given past occurrence.before)
    (held : EntriesHeld (occurrence :: past)) :
    ∃ more, Proper registry more (occurrence :: past) occurrence.after := by
  have handed := proper.hands held
  have agree := proper.entriesAgree handed
  have lawful : occurrence.after.store.Lawful registry := by
    cases effect_of_event proper.toLedger proper.notRoot handed with
    | same unchanged => exact unchanged ▸ proper.lawful
    | granted granted => exact proper.lawful.granted (fun _ => id) (proper.same ▸ granted)
    | revoked deletion revoked => exact proper.lawful.revoked revoked
  have consequence := (proper.event agree).1
  obtain ⟨more, accounted, newlyGiven⟩ := proper.toAccounted.next agree
  refine ⟨more, accounted, consequence.registry.trans proper.same, lawful, fun id entry known => ?_⟩
  rcases newlyGiven id entry known with isGiven | holds
  · exact proper.notRoot id entry isGiven
  · exact lawful.notRoot holds

theorem proper_of_run {rule : Occurrence → Prop} (empty : start.store = .empty)
    (idle : start.Idle) (run : Run rule start past service) (held : EntriesHeld past) :
    ∃ given, Proper start.registry given past service := by
  induction run with
  | start =>
    have lawful : start.store.Lawful start.registry := empty ▸ .empty
    refine ⟨start.store.get?, ⟨ledger_of_start lawful.numbered idle, fun _ never => nomatch never⟩,
      rfl, lawful, fun id entry found => ?_⟩
    exact lawful.notRoot (lawful.numbered.holds found)
  | next event kept ruled ih =>
    obtain ⟨given, proper⟩ := ih held.2
    exact proper.next held

/-- **After any calls of any managers the store is lawful**: each entry has a role that the registry
allows on its class, none belongs to root, and a dependency links two stored entries of one identity
whose parent entry has a role that propagates. -/
theorem lawful_of_run {rule : Occurrence → Prop} (empty : start.store = .empty)
    (idle : start.Idle) (run : Run rule start past service) (held : EntriesHeld past) :
    service.store.Lawful start.registry := by
  obtain ⟨given, proper⟩ := proper_of_run empty idle run held
  exact proper.lawful

/-- A grant propagates to a part of its object, another manager passes it on and takes it back. In
between a grant to root is not made, and two calls fail: a deletion of a child entry, and an attempt
to pass on a grant that is gone. -/
def passingEvents : List Event := [
  .call (.manage 0 .begin),
  .call (.manage 0 (.createEntry (.user "1") .sample .reader)),
  .call (.manage 1 .begin),
  .call (.manage 1 (.createEntry (.user "0") .sample .reader)),
  .call (.manage 1 (.deleteEntry ⟨2, .user "1", .part, .reader⟩ false)),
  .call (.manage 1 (.propagateToChild ⟨1, .user "1", .sample, .reader⟩ ⟨.resource, 3⟩ .reader
    .cascade)),
  .call (.manage 0 (.createEntriesForChild .part ⟨.resource, 4⟩)),
  .call (.manage 1 (.deleteEntry ⟨1, .user "1", .sample, .reader⟩ true)),
  .call (.manage 0 (.propagateToChild ⟨1, .user "1", .sample, .reader⟩ .part .reader .cascade))]

theorem lawful_after_passingEvents :
    Service.sampleWithPart.store = .empty ∧ Service.sampleWithPart.Idle ∧
    EntriesHeld (replay [] .sampleWithPart passingEvents).1 ∧
    (replay [] .sampleWithPart passingEvents).2.store.entryList =
      [⟨2, .user "1", .part, .reader⟩, ⟨4, .user "1", ⟨.resource, 4⟩, .reader⟩] ∧
    (replay [] .sampleWithPart passingEvents).2.store.dependencies = [⟨2, 4, .detach⟩] ∧
    (replay [] .sampleWithPart passingEvents).2.store.Lawful Service.sampleWithPart.registry := by
  have idle : Service.sampleWithPart.Idle := by decide +kernel
  have held : EntriesHeld (replay [] .sampleWithPart passingEvents).1 := by decide +kernel
  have run : Run (fun _ => True) .sampleWithPart (replay [] .sampleWithPart passingEvents).1
      (replay [] .sampleWithPart passingEvents).2 := .ofEvents fun _ _ => trivial
  exact ⟨rfl, idle, held, by decide +kernel, by decide +kernel, lawful_of_run rfl idle run held⟩

end BookingAccess
