/-
**Nobody is granted or loses what another was given.**

A call that grants to an identity, passes an entry of it on, or deletes one leaves the entries of
all other identities as they are, and the dependencies between those, whatever the outcome of the
call.

* `Task.concerns?`: the identity that such a call is about;
* `apart_of_task`: the store as far as other identities go.
-/

import BookingAccess.Proofs.Grants.Lawful
import BookingAccess.Proofs.Store.Reach

namespace BookingAccess

open Service Manager Store

variable {manager : ManagerId} {service start : Service} {past : List Occurrence}

/-- The identity that a call is about, if it is about one only. -/
def Task.concerns? : Task → Option Identity
  | .createEntry identity _ _ => some identity
  | .propagateToChild parent _ _ _ => some parent.identity
  | .deleteEntry revoked _ => some revoked.identity
  | _ => none

/-- **A call about one identity leaves the others alone**, in every state that calls lead to from an
empty store. -/
theorem apart_of_task {rule : Occurrence → Prop} {task : Task} {identity : Identity}
    (empty : start.store = .empty) (idle : start.Idle) (run : Run rule start past service)
    (held : EntriesHeld (⟨service, .call (.manage manager task)⟩ :: past))
    (concerns : task.concerns? = some identity) :
    Apart identity service.store (Event.next service (.call (.manage manager task))).store := by
  obtain ⟨given, proper⟩ := proper_of_run empty idle run held.2
  have handed := proper.toAccounted.hands held manager task rfl
  have surveyed : IsOpen manager service → Surveyed manager service := proper.surveyed
  cases task with
  | createEntry identity object role =>
    obtain rfl := Option.some.inj concerns
    have grants : KeepsAt (Granting manager (· = identity)) service
        (Manager.createEntry manager identity object role) :=
      grants_createEntry surveyed fun _ => rfl
    exact Store.Granted.apart proper.lawful.numbered (fun _ => id) grants.map.after.granted
  | propagateToChild parent child role kind =>
    obtain rfl := Option.some.inj concerns
    have known := proper.knows (handed parent (.head _))
    have grants : KeepsAt (Granting manager (· = parent.identity)) service
        (Manager.propagateToChild manager parent child role kind) :=
      grants_propagateToChild surveyed known rfl
    exact Store.Granted.apart proper.lawful.numbered (fun _ => id) grants.map.after.granted
  | deleteEntry revoked detach =>
    obtain rfl := Option.some.inj concerns
    have agrees := proper.agrees (handed revoked (.head _))
    refine Revoked.apart proper.lawful (fun entry holds aimed => ?_)
      (revokes_deleteEntry proper.numbered).map.after.revoked
    -- The entry under this number is the one that was handed over.
    obtain rfl := agrees entry ((show entry.id = revoked.id from aimed) ▸ holds)
    rfl
  | _ => exact nomatch concerns

/-- Two users are granted the same, with what follows from it. -/
def sharingEvents : List Event := [
  .call (.manage 0 .begin),
  .call (.manage 0 (.createEntry (.user "1") .sample .reader)),
  .call (.manage 0 (.createEntry (.user "2") .sample .reader))]

/-- The deletion of what the first user was granted. -/
def firstDeletion : Task := .deleteEntry ⟨1, .user "1", .sample, .reader⟩ false

/-- It takes away what followed from the grant, and leaves the second user what follows from the
same grant to that user. -/
theorem apart_after_firstDeletion :
    Service.sampleWithPart.store = .empty ∧ Service.sampleWithPart.Idle ∧
    EntriesHeld (⟨(replay [] .sampleWithPart sharingEvents).2, .call (.manage 0 firstDeletion)⟩ ::
      (replay [] .sampleWithPart sharingEvents).1) ∧
    firstDeletion.concerns? = some (.user "1") ∧
    (replay [] .sampleWithPart sharingEvents).2.store.entryList.map Entry.id = [1, 2, 3, 4] ∧
    (Event.next (replay [] .sampleWithPart sharingEvents).2
      (.call (.manage 0 firstDeletion))).store.entryList =
        [⟨3, .user "2", .sample, .reader⟩, ⟨4, .user "2", .part, .reader⟩] ∧
    Apart (.user "1") (replay [] .sampleWithPart sharingEvents).2.store
      (Event.next (replay [] .sampleWithPart sharingEvents).2
        (.call (.manage 0 firstDeletion))).store := by
  have idle : Service.sampleWithPart.Idle := by decide +kernel
  have held : EntriesHeld (⟨(replay [] .sampleWithPart sharingEvents).2,
      .call (.manage 0 firstDeletion)⟩ :: (replay [] .sampleWithPart sharingEvents).1) := by
    decide +kernel
  have run : Run (fun _ => True) .sampleWithPart (replay [] .sampleWithPart sharingEvents).1
      (replay [] .sampleWithPart sharingEvents).2 := .ofEvents fun _ _ => trivial
  have concerns : firstDeletion.concerns? = some (.user "1") := rfl
  have apart := apart_of_task rfl idle run held concerns
  exact ⟨rfl, idle, held, concerns, by decide +kernel, by decide +kernel, apart⟩

end BookingAccess
