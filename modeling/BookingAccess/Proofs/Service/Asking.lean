/-
**What a question to a collaborator does.**

A question is counted and answered, unless the collaborator cannot be reached. Nothing else of the
service changes but what the collaborator itself changes with its answer.

* `ensures_storeCall`, `ensures_directoryCall`, `ensures_children`: the questions;
* `StoreError.isOutage`, `DirectoryError.isOutage`, `AccessError.isOutage`: the faults of a
  collaborator that cannot be reached.
-/

import BookingAccess.Proofs.Ensures

namespace BookingAccess

def StoreError.isOutage : StoreError → Bool
  | .internal _ => true
  | _ => false

def DirectoryError.isOutage : DirectoryError → Bool
  | .unavailable _ => true
  | _ => false

/-- Is this how the service reports that a collaborator cannot be reached? -/
def AccessError.isOutage : AccessError → Bool
  | .storage cause => cause.isOutage
  | .provider _ => true
  | _ => false

theorem AccessError.isOutage_ofDirectory {fault : DirectoryError} (outage : fault.isOutage = true) :
    (AccessError.ofDirectory fault).isOutage = true := by
  cases fault <;> first | rfl | exact nomatch outage

variable {α : Type} {service : Service}

/-- A question to the store. -/
theorem ensures_storeCall (kind : StoreCall) (answer : Store → Except StoreError (α × Store)) :
    Ensures (StoreClient.call kind answer) service
      (fun value after => ∃ store, answer service.store = .ok (value, store) ∧
        after = { service with calls := service.calls + 1, store := store })
      (fun fault after => (answer service.store = .error fault ∨ fault.isOutage = true) ∧
        after = { service with calls := service.calls + 1 }) := by
  unfold StoreClient.call
  simp only [ensures_bind, ensures_get, ensures_set]
  cases service.outages.store service.calls kind with
  | some cause => exact ⟨.inr rfl, rfl⟩
  | none =>
    simp only [ensures_bind, ensures_mk_pure]
    cases result : answer service.store with
    | error fault => exact ⟨.inl rfl, trivial⟩
    | ok pair => exact ⟨pair.2, rfl, rfl⟩

/-- A question to the directory. -/
theorem ensures_directoryCall (kind : DirectoryCall)
    (answer : Directory → Except DirectoryError (α × Directory)) :
    Ensures (DirectoryClient.call kind answer) service
      (fun value after => ∃ directory, answer service.directory = .ok (value, directory) ∧
        after = { service with
          calls := service.calls + 1, lookups := service.lookups + 1, directory := directory })
      (fun fault after => (answer service.directory = .error fault ∨ fault.isOutage = true) ∧
        ∃ lookups, after = { service with calls := service.calls + 1, lookups := lookups }) := by
  unfold DirectoryClient.call
  simp only [ensures_bind, ensures_get, ensures_set]
  cases service.outages.directory service.calls kind with
  | some cause => exact ⟨.inr rfl, _, rfl⟩
  | none =>
    simp only [ensures_bind, ensures_modify, ensures_mk_pure]
    cases result : answer service.directory with
    | error fault => exact ⟨.inl rfl, _, rfl⟩
    | ok pair => exact ⟨pair.2, rfl, rfl⟩

/-- A change of the store that gives no answer. -/
theorem ensures_storeChange (kind : StoreCall) (answer : Store → Except StoreError Store) :
    Ensures (StoreClient.change kind answer) service
      (fun _ after => ∃ store, answer service.store = .ok store ∧
        after = { service with calls := service.calls + 1, store := store })
      (fun fault after => (answer service.store = .error fault ∨ fault.isOutage = true) ∧
        after = { service with calls := service.calls + 1 }) := by
  unfold StoreClient.change
  refine (ensures_storeCall kind _).mono ?_ ?_
  · rintro _ after ⟨store, result, rfl⟩
    cases answered : answer service.store with
    | error fault => rw [answered] at result; exact nomatch result
    | ok changed =>
      rw [answered] at result
      exact ⟨changed, rfl, (Prod.mk.inj (Except.ok.inj result)).2 ▸ rfl⟩
  · rintro fault after ⟨refused | outage, rfl⟩
    · cases answered : answer service.store with
      | error cause =>
        rw [answered] at refused
        exact ⟨.inl (congrArg _ (Except.error.inj refused)), rfl⟩
      | ok changed =>
        rw [answered] at refused
        exact nomatch refused
    · exact ⟨.inr outage, rfl⟩

/-- A change of the directory that gives no answer. -/
theorem ensures_directoryChange (kind : DirectoryCall)
    (answer : Directory → Except DirectoryError Directory) :
    Ensures (DirectoryClient.change kind answer) service
      (fun _ after => ∃ directory, answer service.directory = .ok directory ∧
        after = { service with
          calls := service.calls + 1, lookups := service.lookups + 1, directory := directory })
      (fun fault after => (answer service.directory = .error fault ∨ fault.isOutage = true) ∧
        ∃ lookups, after = { service with calls := service.calls + 1, lookups := lookups }) := by
  unfold DirectoryClient.change
  refine (ensures_directoryCall kind _).mono ?_ ?_
  · rintro _ after ⟨directory, result, rfl⟩
    cases answered : answer service.directory with
    | error fault => rw [answered] at result; exact nomatch result
    | ok changed =>
      rw [answered] at result
      exact ⟨changed, rfl, (Prod.mk.inj (Except.ok.inj result)).2 ▸ rfl⟩
  · rintro fault after ⟨refused | outage, lookups, rfl⟩
    · cases answered : answer service.directory with
      | error cause =>
        rw [answered] at refused
        exact ⟨.inl (congrArg _ (Except.error.inj refused)), lookups, rfl⟩
      | ok changed => rw [answered] at refused; exact nomatch refused
    · exact ⟨.inr outage, lookups, rfl⟩

/-- A question to the graph of objects. -/
theorem ensures_children (parent : ObjectRef) (relation : String) :
    Ensures (GraphClient.children parent relation) service
      (fun children after => children = service.graph.children parent relation ∧
        after = { service with calls := service.calls + 1 })
      (fun fault after => fault.isOutage = true ∧
        after = { service with calls := service.calls + 1 }) := by
  unfold GraphClient.children
  simp only [ensures_bind, ensures_get, ensures_set]
  cases service.outages.graph service.calls with
  | some cause => exact ⟨rfl, rfl⟩
  | none => exact ⟨rfl, rfl⟩

end BookingAccess
