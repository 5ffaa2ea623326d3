/-
**Whatever is asked of a store, it stays intact.**

A request is one call of the store with what the caller hands over. However requests follow one
another, from an empty store on, it is intact, entries are handed out under the numbers 1, 2, 3 and
so on, and a request that fails has changed nothing.

* `StoreRequest`, `ensures_request`: the requests, and what one of them may change;
* `afterRequests`, `handedOut`: a sequence of requests;
* `intact_after_requests`: what holds after it.
-/

import BookingAccess.Proofs.Replay
import BookingAccess.Proofs.Store.Intact

namespace BookingAccess

open Store

variable {service : Service}

/-- A call of the store with what the caller hands over. -/
inductive StoreRequest
  | createEntry (identity : Identity) (object : ObjectRef) (role : Role)
  | deleteEntry (id : EntryId)
  | getEntry (id : EntryId)
  | findEntry (identity : Identity) (object : ObjectRef) (role : Role)
  | entriesOn (object : ObjectRef)
  | entriesOf (identities : List Identity)
  | createDependency (dependency : Dependency)
  | findDependency (parent child : EntryId)
  | dependenciesOfParent (parent : EntryId)
  | dependenciesOfChild (child : EntryId)
  | dependenciesInto (object : ObjectRef)
  | deleteDependency (parent child : EntryId)

namespace StoreRequest

/-- The call, of whose answer only a created entry is kept. -/
def action : StoreRequest → StoreAction (Option Entry)
  | .createEntry identity object role => some <$> StoreClient.createEntry identity object role
  | .deleteEntry id => (fun _ => none) <$> StoreClient.deleteEntry id
  | .getEntry id => (fun _ => none) <$> StoreClient.getEntry id
  | .findEntry identity object role =>
    (fun _ => none) <$> StoreClient.findEntry identity object role
  | .entriesOn object => (fun _ => none) <$> StoreClient.entriesOn object
  | .entriesOf identities => (fun _ => none) <$> StoreClient.entriesOf identities
  | .createDependency dependency => (fun _ => none) <$> StoreClient.createDependency dependency
  | .findDependency parent child => (fun _ => none) <$> StoreClient.findDependency parent child
  | .dependenciesOfParent parent => (fun _ => none) <$> StoreClient.dependenciesOfParent parent
  | .dependenciesOfChild child => (fun _ => none) <$> StoreClient.dependenciesOfChild child
  | .dependenciesInto object => (fun _ => none) <$> StoreClient.dependenciesInto object
  | .deleteDependency parent child => (fun _ => none) <$> StoreClient.deleteDependency parent child

def answer (request : StoreRequest) (service : Service) : Except StoreError (Option Entry) :=
  (request.action.run.run service).1

/-- The state after the request, whatever the answer. -/
def next (request : StoreRequest) (service : Service) : Service :=
  (request.action.run.run service).2

/-- The entry that the request creates, if it is answered and creates one. -/
def created? (request : StoreRequest) (service : Service) : Option Entry :=
  match request.answer service with
  | .ok created => created
  | .error _ => none

end StoreRequest

/-- The state after these requests, one after another. -/
def afterRequests : Service → List StoreRequest → Service
  | service, [] => service
  | service, request :: requests => afterRequests (request.next service) requests

/-- The entries that these requests create, in their order. -/
def handedOut : Service → List StoreRequest → List Entry
  | _, [] => []
  | service, request :: requests =>
    (request.created? service).toList ++ handedOut (request.next service) requests

/-! ### One request -/

/-- What an answered request does to the store, and the entry that it hands out. -/
inductive StoreAnswered (before : Store) : Option Entry → Store → Prop
  | read : StoreAnswered before none before
  | created {identity : Identity} {object : ObjectRef} {role : Role} {entry : Entry}
      {after : Store} : before.createEntry identity object role = .ok (entry, after) →
      StoreAnswered before (some entry) after
  | deleted {id : EntryId} {after : Store} : before.deleteEntry id = .ok after →
      StoreAnswered before none after
  | linked {dependency : Dependency} {after : Store} :
      before.createDependency dependency = .ok after → StoreAnswered before none after
  | unlinked (parent child : EntryId) :
      StoreAnswered before none (before.deleteDependency parent child)

/-- **A request that fails changes nothing in the store**, and one that is answered changes one
thing at most. -/
theorem ensures_request (request : StoreRequest) :
    Ensures request.action service
      (fun created after => StoreAnswered service.store created after.store)
      (fun _ after => after.store = service.store) := by
  have reads {α : Type} (kind : StoreCall) (answer : Store → α) :
      Ensures ((fun _ => none) <$> StoreClient.read kind answer) service
        (fun created after => StoreAnswered service.store created after.store)
        (fun _ after => after.store = service.store) := by
    refine ensures_map.mpr ((ensures_storeCall _ _).mono ?_ fun _ _ ⟨_, asked⟩ => asked ▸ rfl)
    rintro value after ⟨store, result, rfl⟩
    obtain ⟨-, rfl⟩ := Prod.mk.inj (Except.ok.inj result)
    exact .read
  have changes (kind : StoreCall) {answer : Store → Except StoreError Store}
      (change : ∀ {store}, answer service.store = .ok store →
        StoreAnswered service.store none store) :
      Ensures ((fun _ => none) <$> StoreClient.change kind answer) service
        (fun created after => StoreAnswered service.store created after.store)
        (fun _ after => after.store = service.store) := by
    refine ensures_map.mpr ((ensures_storeChange _ _).mono ?_ fun _ _ ⟨_, asked⟩ => asked ▸ rfl)
    rintro _ after ⟨store, result, rfl⟩
    exact change result
  cases request with
  | createEntry identity object role =>
    refine ensures_map.mpr ((ensures_storeCall _ _).mono ?_ fun _ _ ⟨_, asked⟩ => asked ▸ rfl)
    rintro entry after ⟨store, result, rfl⟩
    exact .created result
  | deleteEntry id => exact changes _ .deleted
  | createDependency dependency => exact changes _ .linked
  | deleteDependency parent child =>
    exact changes _ fun result => Except.ok.inj result ▸ .unlinked parent child
  | getEntry | findEntry | entriesOn | entriesOf => exact reads _ _
  | findDependency | dependenciesOfParent | dependenciesOfChild | dependenciesInto =>
    exact reads _ _

namespace StoreAnswered

variable {before after : Store} {created : Option Entry}

/-- An answered request keeps the store intact. -/
theorem intact (answered : StoreAnswered before created after) (intact : before.Intact) :
    after.Intact := by
  cases answered with
  | read => exact intact
  | created result => exact intact.createEntry result
  | deleted result => exact intact.deleteEntry result
  | linked result => exact intact.createDependency result
  | unlinked parent child => exact intact.deleteDependency

/-- Numbers are handed out in sequence. -/
theorem numbers (answered : StoreAnswered before created after) :
    created.toList.map Entry.id = List.range' (before.lastId + 1) created.toList.length ∧
      after.lastId = before.lastId + created.toList.length := by
  cases answered with
  | read => exact ⟨rfl, rfl⟩
  | created result =>
    obtain ⟨-, rfl, rfl⟩ := createEntry_eq_ok_iff.mp result
    exact ⟨rfl, rfl⟩
  | deleted result =>
    obtain ⟨-, rfl⟩ := deleteEntry_eq_ok_iff.mp result
    exact ⟨rfl, rfl⟩
  | linked result =>
    obtain ⟨-, -, -, rfl⟩ := createDependency_eq_ok_iff.mp result
    exact ⟨rfl, rfl⟩
  | unlinked parent child => exact ⟨rfl, rfl⟩

end StoreAnswered

namespace StoreRequest

theorem store_of_error {request : StoreRequest} {fault : StoreError}
    (failed : request.answer service = .error fault) :
    (request.next service).store = service.store :=
  (ensures_request request).of_error (Prod.ext failed rfl)

/-- The request was answered, or else it has done nothing. -/
theorem answered (request : StoreRequest) (service : Service) :
    StoreAnswered service.store (request.created? service) (request.next service).store := by
  unfold created?
  cases result : request.answer service with
  | ok created => exact (ensures_request request).of_answer result
  | error fault =>
    rw [store_of_error result]
    exact .read

end StoreRequest

/-! ### Sequences of requests -/

/-- After any requests an intact store is intact, and the numbers that were handed out are the next
ones in sequence. -/
theorem intact_and_numbers (intact : service.store.Intact) (requests : List StoreRequest) :
    (afterRequests service requests).store.Intact ∧
    (handedOut service requests).map Entry.id =
      List.range' (service.store.lastId + 1) (handedOut service requests).length ∧
    (afterRequests service requests).store.lastId =
      service.store.lastId + (handedOut service requests).length := by
  induction requests generalizing service with
  | nil => exact ⟨intact, rfl, rfl⟩
  | cons request requests ih =>
    have answered := request.answered service
    obtain ⟨numbers, lastId⟩ := answered.numbers
    obtain ⟨stillIntact, laterNumbers, laterLastId⟩ := ih (answered.intact intact)
    refine ⟨stillIntact, ?_, ?_⟩
    · rw [handedOut, List.map_append, numbers, laterNumbers, lastId, List.length_append,
        ← List.range'_append_1, Nat.add_right_comm]
    · rw [afterRequests, laterLastId, lastId, handedOut, List.length_append, Nat.add_assoc]

/-- **A store that started empty is intact after any requests**, its entries were handed out under
the numbers 1, 2, 3 and so on, each greater than all before, and a request that fails changes
nothing. -/
theorem intact_after_requests (empty : service.store = .empty) (requests : List StoreRequest) :
    (afterRequests service requests).store.Intact ∧
    (handedOut service requests).map Entry.id =
      List.range' 1 (handedOut service requests).length ∧
    ∀ request : StoreRequest,
      (∀ entry, request.answer (afterRequests service requests) = .ok (some entry) →
        ∀ earlier ∈ handedOut service requests, earlier.id < entry.id) ∧
      ∀ fault, request.answer (afterRequests service requests) = .error fault →
        (request.next (afterRequests service requests)).store =
          (afterRequests service requests).store := by
  have startsIntact : service.store.Intact := empty ▸ .empty
  obtain ⟨intact, numbers, lastId⟩ := intact_and_numbers startsIntact requests
  rw [empty] at numbers lastId
  refine ⟨intact, numbers, fun request => ⟨fun entry answered earlier isEarlier => ?_,
    fun fault => StoreRequest.store_of_error⟩⟩
  have earlierNumber : earlier.id ∈ List.range' 1 (handedOut service requests).length :=
    numbers ▸ List.mem_map_of_mem isEarlier
  have number : entry.id = (handedOut service requests).length + 1 := by
    have creates := (ensures_request request).of_answer answered
    have next := creates.numbers.1
    rw [lastId] at next
    simpa [Store.empty] using next
  rw [number, Nat.add_comm]
  exact (List.mem_range'_1.mp earlierNumber).2

/-- Two entries are created and linked, one also to itself, and the first one is deleted and granted
again. In between a grant, two links and a deletion are refused. -/
def linkingRequests : List StoreRequest := [
  .createEntry (.user "1") .sample .reader,
  .createEntry (.user "1") .sample .reader,
  .createEntry (.user "2") .sample .reader,
  .createDependency ⟨1, 2, .detach⟩,
  .createDependency ⟨1, 2, .cascade⟩,
  .createDependency ⟨2, 2, .cascade⟩,
  .deleteEntry 1,
  .deleteEntry 1,
  .createEntry (.user "1") .sample .reader,
  .createDependency ⟨1, 3, .detach⟩]

theorem intact_after_linkingRequests :
    Service.sample.store = .empty ∧
    (afterRequests .sample linkingRequests).store.Intact ∧
    (afterRequests .sample linkingRequests).store.dependencies = [⟨2, 2, .cascade⟩] ∧
    (handedOut .sample linkingRequests).map Entry.id = [1, 2, 3] ∧
    ((StoreRequest.createEntry (.user "4") .sample .reader).answer
      (afterRequests .sample linkingRequests)) =
        .ok (some ⟨4, .user "4", .sample, .reader⟩) ∧
    (∀ earlier ∈ handedOut .sample linkingRequests, earlier.id < 4) ∧
    (StoreRequest.deleteEntry 1).answer (afterRequests .sample linkingRequests) =
      .error (.entryNotFound 1) ∧
    ((StoreRequest.deleteEntry 1).next (afterRequests .sample linkingRequests)).store =
      (afterRequests .sample linkingRequests).store := by
  have empty : Service.sample.store = .empty := rfl
  obtain ⟨intact, -, kept⟩ := intact_after_requests empty linkingRequests
  have created : ((StoreRequest.createEntry (.user "4") .sample .reader).answer
      (afterRequests .sample linkingRequests)) =
        .ok (some ⟨4, .user "4", .sample, .reader⟩) :=
    ok_of_toOption (by decide +kernel)
  have refused : (StoreRequest.deleteEntry 1).answer (afterRequests .sample linkingRequests) =
      .error (.entryNotFound 1) :=
    error_of_fault (by decide +kernel)
  exact ⟨empty, intact, by decide +kernel, by decide +kernel, created, (kept _).1 _ created,
    refused, (kept _).2 _ refused⟩

end BookingAccess
