/-
**What a manager leaves alone.**

Between beginning and end, a call of a manager goes to the store and to the graph of objects, notes
what it does in the working sets and on the audit trail, and that is all. So whatever these keep is
kept by the call, whatever is handed to it and wherever it fails.

* `KeptByCalling`, `KeptByManaging`: the relations that such a call keeps; `Task.manages`: it does;
  `Task.idles`: without a transaction nothing is written;
* `SameSurroundings`: the cache, the directory and whatever else is not the manager's stay as they
  are;
* `StoreInvariant`, `Stays.run`: what every change of a store keeps is kept, whatever happens.
-/

import BookingAccess.Proofs.Consequence

namespace BookingAccess

open Service Manager

variable {manager : ManagerId}

/-- A relation that is kept by what a call of a manager consists of, apart from storing entries and
deleting them. -/
class KeptByCalling (relation : Service → Service → Prop) : Prop
    extends IsPreorder Service relation where
  storeRead : ∀ {α : Type} (kind : StoreCall) (answer : Store → α),
    Keeps relation (StoreClient.read kind answer)
  createDependency : ∀ dependency, Keeps relation (StoreClient.createDependency dependency)
  deleteDependency : ∀ parent child, Keeps relation (StoreClient.deleteDependency parent child)
  children : ∀ parent name, Keeps relation (GraphClient.children parent name)
  record : ∀ event, Keeps relation (record event)

/-- Such a call keeps what follows from a relation that it keeps. -/
theorem KeptByCalling.mono {relation weaker : Service → Service → Prop} [KeptByCalling relation]
    [IsPreorder Service weaker]
    (follows : ∀ before after, relation before after → weaker before after) :
    KeptByCalling weaker where
  storeRead kind answer := (storeRead kind answer).mono follows
  createDependency dependency := (createDependency dependency).mono follows
  deleteDependency parent child := (deleteDependency parent child).mono follows
  children parent name := (children parent name).mono follows
  record event := (record event).mono follows

instance : KeptByCalling Quiet where
  storeRead := KeptByReading.storeRead
  createDependency := keeps_createDependency
  deleteDependency := keeps_deleteDependency
  children := KeptByReading.children
  record := KeptByReading.record

/-- A relation that is kept when this manager stores or deletes an entry and notes that. -/
class KeptByManaging (manager : ManagerId) (relation : Service → Service → Prop) : Prop where
  insertEntry : ∀ identity object role, Keeps relation (insertEntry manager identity object role)
  removeEntry : ∀ entry, Keeps relation (removeEntry manager entry)

/-- It is enough that each part keeps the relation. -/
theorem KeptByManaging.ofParts {relation : Service → Service → Prop} [KeptByCalling relation]
    (createEntry : ∀ identity object role,
      Keeps relation (StoreClient.createEntry identity object role))
    (deleteEntry : ∀ id, Keeps relation (StoreClient.deleteEntry id))
    (changeWorkingSets : ∀ change, Keeps relation (changeWorkingSets manager change)) :
    KeptByManaging manager relation where
  insertEntry identity object role := by
    unfold Manager.insertEntry
    refine .bind (.ofStore (createEntry identity object role)) fun entry => ?_
    refine .bind (KeptByCalling.record _) fun _ => ?_
    exact .bind (changeWorkingSets _) fun _ => .pure
  removeEntry entry := by
    unfold Manager.removeEntry
    refine .bind (.ofStore (deleteEntry _)) fun _ => ?_
    exact .bind (KeptByCalling.record _) fun _ => changeWorkingSets _

section Managing

variable {relation : Service → Service → Prop} [KeptByCalling relation]

/-! ### Looking things up -/

theorem manages_read {α : Type} (kind : StoreCall) (answer : Store → α) :
    Keeps relation (Action.ofStore (StoreClient.read kind answer)) :=
  .ofStore (KeptByCalling.storeRead kind answer)

theorem manages_requireTransaction : Keeps relation (requireTransaction manager) := by
  unfold requireTransaction workingSets
  refine .bind (.bind .get fun service => ?_) fun _ => .pure
  split
  · exact .pure
  · exact .throw

theorem manages_currentSets : Keeps relation (currentSets manager) := by
  unfold currentSets
  exact .bind .get fun _ => .pure

theorem manages_isRemoved (id : EntryId) : Keeps relation (isRemoved manager id) := by
  unfold isRemoved
  exact .bind manages_currentSets fun _ => .pure

theorem manages_getEntry (identity : Identity) (object : ObjectRef) (role : Role) :
    Keeps relation (getEntry manager identity object role) := by
  unfold getEntry
  refine .bind manages_currentSets fun sets => ?_
  split
  · exact .pure
  · exact .bind (manages_read _ _) fun _ => .pure

theorem manages_entry (id : EntryId) : Keeps relation (entry manager id) := by
  unfold entry
  refine .bind manages_currentSets fun sets => ?_
  split
  · exact .pure
  · split
    · exact .pure
    · refine .bind .get fun service => ?_
      split
      · exact .pure
      · exact manages_read _ _

theorem manages_entries (object : ObjectRef) : Keeps relation (entries manager object) := by
  unfold entries
  refine .bind manages_currentSets fun sets => ?_
  exact .bind (manages_read _ _) fun _ => .pure

/-! ### Granting -/

variable [KeptByManaging manager relation]

theorem manages_linkEntries (parent child : Entry) (kind : DependencyKind) :
    Keeps relation (linkEntries parent child kind) := by
  unfold linkEntries
  refine .bind (manages_read _ _) fun known => ?_
  split
  · refine .bind (.ofStore (KeptByCalling.createDependency _)) fun _ => ?_
    exact KeptByCalling.record _
  · exact .pure

theorem manages_grantChild {descend : Entry → Action Unit}
    (descends : ∀ entry, Keeps relation (descend entry)) (parent : Entry) (child : ObjectRef)
    (role : Role) (kind : DependencyKind) :
    Keeps relation (grantChild descend manager parent child role kind) := by
  have links (entry : Entry) : Keeps relation (do
      linkEntries parent entry kind
      return some entry) :=
    .bind (manages_linkEntries _ _ _) fun _ => .pure
  unfold grantChild
  refine .bind manages_requireTransaction fun _ => .bind .get fun service => ?_
  split
  · exact .pure
  · refine .bind (keeps_validateRole child role) fun _ => ?_
    refine .bind (manages_getEntry _ _ _) fun found => ?_
    split
    · exact .bind .pure links
    · refine .bind (KeptByManaging.insertEntry _ _ _) fun entry => ?_
      exact .bind (descends entry) fun _ => .bind .pure links

theorem manages_applyRule {descend : Entry → Action Unit}
    (descends : ∀ entry, Keeps relation (descend entry)) (entry : Entry) (rule : PropagationRule) :
    Keeps relation (applyRule descend manager entry rule) := by
  unfold applyRule
  refine .bind .get fun service => ?_
  split
  · exact .pure
  · refine .bind (.ofStore (KeptByCalling.children _ _)) fun children => ?_
    refine .forM fun child => ?_
    exact .bind (manages_grantChild descends _ _ _ _) fun _ => .pure

theorem manages_propagate (depth : Nat) (entry : Entry) :
    Keeps relation (propagate depth manager entry) := by
  induction depth generalizing entry with
  | zero => exact .pure
  | succ depth ih =>
    unfold propagate
    exact .bind .get fun service => .forM fun rule => manages_applyRule ih entry rule

theorem manages_propagateFrom (entry : Entry) : Keeps relation (propagateFrom manager entry) := by
  unfold propagateFrom
  exact .bind .get fun service => manages_propagate _ entry

theorem manages_createEntry (identity : Identity) (object : ObjectRef) (role : Role) :
    Keeps relation (createEntry manager identity object role) := by
  unfold createEntry
  split
  · exact .pure
  · refine .bind manages_requireTransaction fun _ => ?_
    refine .bind (keeps_validateRole object role) fun _ => ?_
    refine .bind (manages_getEntry _ _ _) fun found => ?_
    split
    · exact .pure
    · refine .bind (KeptByManaging.insertEntry _ _ _) fun entry => ?_
      exact .bind (manages_propagateFrom entry) fun _ => .pure

theorem manages_propagateToChild (parent : Entry) (child : ObjectRef) (role : Role)
    (kind : DependencyKind) : Keeps relation (propagateToChild manager parent child role kind) :=
  manages_grantChild manages_propagateFrom parent child role kind

theorem manages_passOn (childType : ObjectType) (child : ObjectRef) (parents : List Entry) :
    Keeps relation (passOn manager childType child parents) := by
  induction parents with
  | nil => exact .pure
  | cons parent parents ih =>
    unfold passOn
    split
    · exact .bind (manages_propagateToChild _ _ _ _) fun created => .bind ih fun _ => .pure
    · exact .bind .pure fun created => .bind ih fun _ => .pure

theorem manages_createEntriesForChild (parent child : ObjectRef) :
    Keeps relation (createEntriesForChild manager parent child) := by
  unfold createEntriesForChild
  refine .bind manages_requireTransaction fun _ => .bind .get fun service => ?_
  split
  · exact .throw
  · exact .bind (manages_entries parent) fun parents => manages_passOn _ child parents

/-! ### Revoking -/

theorem manages_leaveParents (entry : Entry) (detach : Bool) :
    Keeps relation (leaveParents entry detach) := by
  unfold leaveParents
  refine .bind (manages_read _ _) fun parents => ?_
  split
  · split
    · exact .stop
    · exact .forM fun dependency => .ofStore (KeptByCalling.deleteDependency _ _)
  · exact .pure

section Tree

variable {delete : Entry → Action DeleteOutcome} (deletes : ∀ entry, Keeps relation (delete entry))

include deletes

theorem manages_deleteChild (parent child : Entry) :
    Keeps relation (deleteChild delete parent child) := by
  unfold deleteChild
  refine .tryCatch (deletes child) fun fault => ?_
  split
  · exact .bind (KeptByCalling.record _) fun _ => .pure
  · exact .throw

theorem manages_deleteChildren (parent : Entry) (detach : Bool) (dependencies : List Dependency) :
    Keeps relation (deleteChildren delete parent detach dependencies) := by
  induction dependencies with
  | nil => exact .pure
  | cons dependency dependencies ih =>
    have rest (outcome : DeleteOutcome) : Keeps relation (do
        return outcome.append (← deleteChildren delete parent detach dependencies)) :=
      .bind ih fun _ => .pure
    unfold deleteChildren
    split
    · exact .bind .pure rest
    · refine .bind (manages_read _ _) fun found => ?_
      split
      · exact .bind .pure rest
      · exact .bind (manages_deleteChild deletes parent _) rest

end Tree

theorem manages_deleteTree (depth : Nat) (detach : Bool) (entry : Entry) :
    Keeps relation (deleteTree depth manager detach entry) := by
  induction depth generalizing detach entry with
  | zero => exact .throw
  | succ depth ih =>
    unfold deleteTree
    refine .bind (manages_leaveParents entry detach) fun _ => ?_
    refine .bind (manages_read _ _) fun children => ?_
    refine .bind (KeptByManaging.removeEntry entry) fun _ => ?_
    exact .bind (manages_deleteChildren (ih false) entry detach children)
      fun _ => .pure

theorem manages_deleteFrom (detach : Bool) (entry : Entry) :
    Keeps relation (deleteFrom manager detach entry) := by
  unfold deleteFrom
  exact .bind .get fun _ => manages_deleteTree _ detach entry

theorem manages_deleteEntry (entry : Entry) (detach : Bool) :
    Keeps relation (deleteEntry manager entry detach) := by
  unfold deleteEntry
  exact .bind manages_requireTransaction fun _ => manages_deleteFrom detach entry

theorem manages_deleteEach (outcome : DeleteOutcome) (entries : List Entry) :
    Keeps relation (deleteEach manager outcome entries) := by
  induction entries generalizing outcome with
  | nil => exact .pure
  | cons entry entries ih =>
    unfold deleteEach
    refine .bind (manages_isRemoved entry.id) fun removed => ?_
    split
    · exact ih outcome
    · exact .bind (manages_deleteFrom true entry) fun _ => ih _

theorem manages_deleteEntriesForObject (object : ObjectRef) :
    Keeps relation (deleteEntriesForObject manager object) := by
  unfold deleteEntriesForObject
  refine .bind manages_requireTransaction fun _ => ?_
  exact .bind (manages_entries object) fun entries => manages_deleteEach _ entries

theorem manages_deleteAttachment (dependency : Dependency) :
    Keeps relation (deleteAttachment manager dependency) := by
  unfold deleteAttachment
  refine .bind (.ofStore (KeptByCalling.deleteDependency _ _)) fun _ => ?_
  refine .bind (manages_read _ _) fun parents => ?_
  split
  · exact .pure
  · refine .bind (manages_read _ _) fun found => ?_
    split
    · exact .pure
    · exact manages_deleteFrom false _

theorem manages_deleteAttachments (parent : ObjectRef) (dependencies : List Dependency) :
    Keeps relation (deleteAttachments manager parent dependencies) := by
  induction dependencies with
  | nil => exact .pure
  | cons dependency dependencies ih =>
    have rest (outcome : DeleteOutcome) : Keeps relation (do
        return outcome.append (← deleteAttachments manager parent dependencies)) :=
      .bind ih fun _ => .pure
    unfold deleteAttachments
    refine .bind (manages_entry _) fun found => ?_
    split
    · exact .bind .pure rest
    · split
      · exact .bind (manages_deleteAttachment dependency) rest
      · exact .bind .pure rest

theorem manages_deleteEntriesForChild (parent child : ObjectRef) :
    Keeps relation (deleteEntriesForChild manager parent child) := by
  unfold deleteEntriesForChild
  refine .bind manages_requireTransaction fun _ => ?_
  exact .bind (manages_read _ _) fun _ => manages_deleteAttachments parent _

end Managing

/-- **Between beginning and end a call of a manager keeps whatever its parts keep.** -/
theorem Task.manages {relation : Service → Service → Prop} [KeptByCalling relation]
    [KeptByManaging manager relation] {task : Task} (inside : task.isBoundary = false) :
    Keeps relation (task.action manager) := by
  cases task with
  | begin | commit | rollback => exact nomatch inside
  | isActive => exact .map (.bind .get fun _ => .pure)
  | getEntry identity object role => exact .map (manages_getEntry identity object role)
  | entry id => exact .map (manages_entry id)
  | entries object => exact .map (manages_entries object)
  | createEntry identity object role => exact .map (manages_createEntry identity object role)
  | propagateToChild parent child role kind =>
    exact .map (manages_propagateToChild parent child role kind)
  | createEntriesForChild parent child => exact .map (manages_createEntriesForChild parent child)
  | deleteEntry revoked detach => exact .map (manages_deleteEntry revoked detach)
  | deleteEntriesForObject object => exact .map (manages_deleteEntriesForObject object)
  | deleteEntriesForChild parent child => exact .map (manages_deleteEntriesForChild parent child)

/-- **Without a transaction a call of a manager only looks things up.** -/
theorem Task.idles {relation : Service → Service → Prop} [KeptByCalling relation]
    {service : Service} {task : Task} (closed : service.transactions[manager]? = none)
    (inside : task.isBoundary = false) : KeepsAt relation service (task.action manager) := by
  have refused {α : Type} {rest : Unit → Action α} :
      KeepsAt relation service (requireTransaction manager >>= rest) :=
    keepsAt_requireTransaction_bind fun opened => by
      rw [Manager.IsOpen, closed] at opened
      cases opened
  cases task with
  | begin | commit | rollback => exact absurd inside.symm Bool.false_ne_true
  | isActive => exact Keeps.map (.bind .get fun _ => .pure) service
  | getEntry identity object role => exact Keeps.map (manages_getEntry identity object role) service
  | entry id => exact Keeps.map (manages_entry id) service
  | entries object => exact Keeps.map (manages_entries object) service
  | createEntry identity object role =>
    refine KeepsAt.map ?_
    unfold Manager.createEntry
    split
    · exact .pure
    · exact refused
  | propagateToChild | createEntriesForChild | deleteEntry | deleteEntriesForObject
  | deleteEntriesForChild => exact KeepsAt.map refused

/-- The working sets of an open transaction are changed, and nothing else is. -/
theorem ensures_changeWorkingSets {service : Service} (change : WorkingSets → WorkingSets) :
    Ensures (changeWorkingSets manager change) service
      (fun _ after => ∃ sets, service.transactions[manager]? = some sets ∧ after =
        { service with transactions := service.transactions.insert manager (change sets) })
      (fun _ after => service.transactions[manager]? = none ∧ after = service) := by
  unfold changeWorkingSets
  refine ensures_bind.mpr (ensures_workingSets.mono ?_ ?_)
  · rintro sets _ ⟨opened, rfl⟩
    exact ensures_modify.mpr ⟨sets, opened, rfl⟩
  · rintro fault _ ⟨-, closed, rfl⟩
    exact ⟨closed, rfl⟩

/-! ### What stays the same -/

/-- Everything that a manager has no part in is the same. -/
structure SameSurroundings (before after : Service) : Prop where
  cache : after.cache = before.cache
  directory : after.directory = before.directory
  registry : after.registry = before.registry
  graph : after.graph = before.graph
  outages : after.outages = before.outages

namespace SameSurroundings

instance : IsPreorder Service SameSurroundings where
  refl _ := ⟨rfl, rfl, rfl, rfl, rfl⟩
  trans _ _ _ first second := ⟨second.cache.trans first.cache,
    second.directory.trans first.directory, second.registry.trans first.registry,
    second.graph.trans first.graph, second.outages.trans first.outages⟩

theorem storeCall {α : Type} (kind : StoreCall)
    (answer : Store → Except StoreError (α × Store)) :
    Keeps SameSurroundings (StoreClient.call kind answer) := fun _ =>
  (ensures_storeCall kind answer).mono (fun _ _ ⟨_, _, asked⟩ => asked ▸ ⟨rfl, rfl, rfl, rfl, rfl⟩)
    fun _ _ ⟨_, asked⟩ => asked ▸ ⟨rfl, rfl, rfl, rfl, rfl⟩

theorem storeChange (kind : StoreCall) (answer : Store → Except StoreError Store) :
    Keeps SameSurroundings (StoreClient.change kind answer) :=
  storeCall kind _

instance : KeptByCalling SameSurroundings where
  storeRead kind _ := storeCall kind _
  createDependency _ := storeChange _ _
  deleteDependency _ _ := storeChange _ _
  children _ _ _ := (ensures_children _ _).mono
    (fun _ _ ⟨_, asked⟩ => asked ▸ ⟨rfl, rfl, rfl, rfl, rfl⟩)
    fun _ _ ⟨_, asked⟩ => asked ▸ ⟨rfl, rfl, rfl, rfl, rfl⟩
  record _ _ := ⟨rfl, rfl, rfl, rfl, rfl⟩

instance : KeptByManaging manager SameSurroundings :=
  .ofParts (fun _ _ _ => storeCall _ _) (fun _ => storeChange _ _) fun change service => by
    refine (ensures_changeWorkingSets change).mono ?_ ?_
    · rintro _ _ ⟨_, _, rfl⟩
      exact ⟨rfl, rfl, rfl, rfl, rfl⟩
    · rintro _ _ ⟨_, rfl⟩
      exact refl _

end SameSurroundings

/-! ### What holds of every store -/

/-- A property of stores that every change of a store keeps. -/
class StoreInvariant (property : Store → Prop) : Prop where
  createEntry : ∀ {store after : Store} {identity object role entry}, property store →
    store.createEntry identity object role = .ok (entry, after) → property after
  deleteEntry : ∀ {store after : Store} {id}, property store →
    store.deleteEntry id = .ok after → property after
  createDependency : ∀ {store after : Store} {dependency}, property store →
    store.createDependency dependency = .ok after → property after
  deleteDependency : ∀ {store : Store} {parent child}, property store →
    property (store.deleteDependency parent child)

instance : StoreInvariant Store.Numbered where
  createEntry := Store.Numbered.createEntry
  deleteEntry := Store.Numbered.deleteEntry
  createDependency numbered result :=
    (Store.createDependency_eq_ok_iff.mp result).2.2.2 ▸ numbered
  deleteDependency := id

instance : StoreInvariant Store.Intact where
  createEntry := Store.Intact.createEntry
  deleteEntry := Store.Intact.deleteEntry
  createDependency := Store.Intact.createDependency
  deleteDependency := Store.Intact.deleteDependency

/-- The store has come from the earlier one: what it holds is new, or it was there before. -/
structure Store.Follows (origin store : Store) : Prop where
  numbered : store.Numbered
  lastId : origin.lastId ≤ store.lastId
  holds : ∀ {entry}, store.Holds entry → origin.lastId < entry.id ∨ origin.Holds entry

namespace Store.Follows

variable {origin store : Store}

protected theorem refl (numbered : origin.Numbered) : Follows origin origin :=
  ⟨numbered, Nat.le_refl _, .inr⟩

/-- An old entry that is stored now was stored before. -/
theorem heldBefore (follows : Follows origin store) {entry : Entry}
    (old : entry.id ≤ origin.lastId) (holds : store.Holds entry) : origin.Holds entry :=
  (follows.holds holds).resolve_left (Nat.not_lt.mpr old)

instance : StoreInvariant (Follows origin) where
  createEntry follows result := by
    obtain ⟨-, isNew, stored⟩ := createEntry_eq_ok_iff.mp result
    refine ⟨follows.numbered.createEntry result, ?_, fun holds => ?_⟩
    · rw [stored]
      exact Nat.le_succ_of_le follows.lastId
    · rcases (follows.numbered.holds_createEntry result).mp holds with rfl | earlier
      · refine .inl ?_
        rw [isNew]
        exact Nat.lt_succ_of_le follows.lastId
      · exact follows.holds earlier
  deleteEntry {store after id} follows result := by
    refine ⟨follows.numbered.deleteEntry result, ?_, fun {entry} holds => follows.holds ?_⟩
    · rw [(deleteEntry_eq_ok_iff.mp result).2]
      exact follows.lastId
    · have found := (get?_of_deleteEntry result).symm.trans holds
      split at found
      · exact nomatch found
      · exact found
  createDependency follows result :=
    (createDependency_eq_ok_iff.mp result).2.2.2 ▸ { follows with }
  deleteDependency follows := { follows with }

end Store.Follows

/-- The property still holds of the store if it did. -/
def Stays (property : Store → Prop) (before after : Service) : Prop :=
  property before.store → property after.store

namespace Stays

variable {property : Store → Prop}

instance : IsPreorder Service (Stays property) where
  refl _ := id
  trans _ _ _ first second := second ∘ first

theorem ofStore {before after : Service} (same : after.store = before.store) :
    Stays property before after :=
  fun holds => same ▸ holds

theorem storeCall {α : Type} {kind : StoreCall}
    {answer : Store → Except StoreError (α × Store)}
    (stays : ∀ {store changed : Store} {value}, property store →
      answer store = .ok (value, changed) → property changed) :
    Keeps (Stays property) (StoreClient.call kind answer) := fun _ =>
  (ensures_storeCall kind answer).mono
    (fun _ _ ⟨_, answered, asked⟩ holds => asked ▸ stays holds answered)
    fun _ _ ⟨_, asked⟩ => asked ▸ id

theorem storeChange {kind : StoreCall} {answer : Store → Except StoreError Store}
    (stays : ∀ {store changed : Store}, property store →
      answer store = .ok changed → property changed) :
    Keeps (Stays property) (StoreClient.change kind answer) := fun _ =>
  (ensures_storeChange kind answer).mono
    (fun _ _ ⟨_, answered, asked⟩ holds => asked ▸ stays holds answered)
    fun _ _ ⟨_, asked⟩ => asked ▸ id

variable [StoreInvariant property]

instance : KeptByCalling (Stays property) where
  storeRead _ _ := storeCall fun holds answered =>
    (Prod.mk.inj (Except.ok.inj answered)).2 ▸ holds
  createDependency _ := storeChange StoreInvariant.createDependency
  deleteDependency _ _ := storeChange fun holds answered =>
    Except.ok.inj answered ▸ StoreInvariant.deleteDependency holds
  children _ _ _ := (ensures_children _ _).mono (fun _ _ ⟨_, asked⟩ => asked ▸ ofStore rfl)
    fun _ _ ⟨_, asked⟩ => asked ▸ ofStore rfl
  record _ _ := id

instance : KeptByManaging manager (Stays property) :=
  .ofParts (fun _ _ _ => storeCall StoreInvariant.createEntry)
    (fun _ => storeChange StoreInvariant.deleteEntry) fun change service => by
      refine (ensures_changeWorkingSets change).mono ?_ ?_
      · rintro _ _ ⟨_, _, rfl⟩
        exact ofStore rfl
      · rintro _ _ ⟨_, rfl⟩
        exact refl _

theorem event (occurrence : Occurrence) : Stays property occurrence.before occurrence.after := by
  have inside {manager : ManagerId} {task : Task}
      (called : occurrence.event = .call (.manage manager task))
      (notBoundary : task.isBoundary = false) :
      Stays property occurrence.before occurrence.after :=
    Occurrence.after_eq_of_task called ▸ (Task.manages notBoundary).after occurrence.before
  cases kind_of_event occurrence with
  | steady steady => exact .ofStore steady.store
  | opened manager _ _ steady => exact .ofStore steady.store
  | closed manager steady => exact .ofStore steady.store
  | granting manager task called isGrant =>
    exact inside called (by cases task <;> first | rfl | exact nomatch isGrant)
  | revoking manager task deletion called isDeletion =>
    exact inside called (by cases task <;> first | rfl | exact nomatch isDeletion)

/-- **What every change of a store keeps is kept by every run**, whatever is called and handed
over. -/
theorem run {rule : Occurrence → Prop} {start service : Service} {past : List Occurrence}
    (run : Run rule start past service) : Stays property start service := by
  induction run with
  | start => exact refl _
  | next event _ _ ih => exact IsTrans.trans _ _ _ ih (Stays.event ⟨_, event⟩)

end Stays

end BookingAccess
