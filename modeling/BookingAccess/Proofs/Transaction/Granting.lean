/-
**Granting only adds.**

However far a grant propagates, and wherever it fails, the calls that grant store new entries and
record them, and do nothing else to the grants. They go by entries that the store holds or that the
manager has added.

* `Sees`, `ensures_getEntry`, `ensures_entries`: what a manager finds inside a transaction;
* `KeptByGranting`: the relations that granting keeps; `Writes` is one;
* `keeps_createEntry`, `keeps_propagateToChild`, `keeps_createEntriesForChild`: the calls.
-/

import BookingAccess.Proofs.Transaction.Writing

namespace BookingAccess.Manager

open Service

variable {manager : ManagerId}

/-! ### Reading inside a transaction -/

section Reading

variable {relation : Service → Service → Prop} [KeptByReading relation]

theorem keeps_isActive : Keeps relation (isActive manager) := by
  unfold isActive
  exact .bind .get fun _ => .pure

theorem keeps_currentSets : Keeps relation (currentSets manager) := by
  unfold currentSets
  exact .bind .get fun _ => .pure

theorem keeps_isRemoved (id : EntryId) : Keeps relation (isRemoved manager id) := by
  unfold isRemoved
  exact .bind keeps_currentSets fun _ => .pure

theorem keeps_getEntry (identity : Identity) (object : ObjectRef) (role : Role) :
    Keeps relation (getEntry manager identity object role) := by
  unfold getEntry
  refine .bind keeps_currentSets fun sets => ?_
  split
  · exact .pure
  · exact .bind (.ofStore (KeptByReading.storeRead _ _)) fun _ => .pure

theorem keeps_entry (id : EntryId) : Keeps relation (entry manager id) := by
  unfold entry
  refine .bind keeps_currentSets fun sets => ?_
  split
  · exact .pure
  · split
    · exact .pure
    · refine .bind .get fun service => ?_
      split
      · exact .pure
      · exact .ofStore (KeptByReading.storeRead _ _)

theorem keeps_entries (object : ObjectRef) : Keeps relation (entries manager object) := by
  unfold entries
  refine .bind keeps_currentSets fun sets => ?_
  exact .bind (.ofStore (KeptByReading.storeRead _ _)) fun _ => .pure

/-- What the store is asked for is what it has. -/
theorem ensures_read {α : Type} {service : Service} (kind : StoreCall) (answer : Store → α) :
    Ensures (Action.ofStore (StoreClient.read kind answer)) service
      (fun value after => relation service after ∧
        value = answer service.store ∧ after.store = service.store)
      (fun _ => relation service) := by
  have reads : KeepsAt relation service (StoreClient.read kind answer) :=
    KeptByReading.storeRead kind answer service
  refine ensures_ofStore.mpr (((reads.and (ensures_storeRead kind answer)).and
    (Steady.storeRead kind answer service)).mono ?_ fun _ _ ⟨⟨related, _⟩, _⟩ => related)
  exact fun _ _ ⟨⟨related, same, _⟩, steady⟩ => ⟨related, same, steady.store⟩

end Reading

/-! ### What a manager sees -/

/-- The entry is stored, or the manager has added it in the open transaction. -/
def Sees (manager : ManagerId) (service : Service) (entry : Entry) : Prop :=
  service.store.Holds entry ∨
    ∃ sets, service.transactions[manager]? = some sets ∧ entry ∈ sets.added.values

section Sees

variable {relation : Service → Service → Prop} [KeptByReading relation] {service : Service}

theorem sees_of_added {entry : Entry}
    (added : entry ∈ (service.transactions[manager]?.getD .empty).added.values) :
    Sees manager service entry := by
  cases opened : service.transactions[manager]? with
  | none =>
    rw [opened] at added
    obtain ⟨id, found⟩ := OrderedMap.mem_values_iff.mp added
    exact nomatch Std.ExtTreeMap.getElem?_empty.symm.trans found
  | some sets =>
    rw [opened] at added
    exact .inr ⟨sets, opened, added⟩

theorem mem_of_find?_grants {entries : List Entry} {identity : Identity} {object : ObjectRef}
    {role : Role} {entry : Entry}
    (found : entries.find? (·.grants identity object role) = some entry) :
    entry ∈ entries ∧ entry.identity = identity ∧ entry.object = object ∧ entry.role = role := by
  have grants := List.find?_some found
  exact ⟨List.mem_of_find?_eq_some found, (entry.grants_iff _ _ _).mp grants⟩

/-- What the manager finds it sees, and it grants what was looked for. -/
theorem ensures_getEntry (numbered : service.store.Numbered) (identity : Identity)
    (object : ObjectRef) (role : Role) :
    Ensures (getEntry manager identity object role) service
      (fun found after => relation service after ∧ ∀ entry, found = some entry →
        Sees manager service entry ∧
          entry.identity = identity ∧ entry.object = object ∧ entry.role = role)
      (fun _ => relation service) := by
  unfold getEntry currentSets
  simp only [ensures_bind, ensures_get, ensures_pure]
  split
  · rename_i entry found
    refine ensures_pure.mpr ⟨refl _, fun other same => ?_⟩
    obtain rfl := Option.some.inj same
    exact (mem_of_find?_grants found).imp_left sees_of_added
  · simp only [ensures_bind, ensures_pure]
    refine (ensures_read _ _).mono ?_ fun _ _ wrong => wrong
    rintro stored after ⟨related, rfl, -⟩
    refine ⟨related, fun entry found => ?_⟩
    obtain ⟨listed, grants⟩ := mem_of_find?_grants (Option.filter_eq_some_iff.mp found).1
    exact ⟨.inl (numbered.mem_entryList.mp listed), grants⟩

/-- What is listed on an object the manager sees. -/
theorem ensures_entries (numbered : service.store.Numbered) (object : ObjectRef) :
    Ensures (entries manager object) service
      (fun entries after => relation service after ∧ ∀ entry ∈ entries,
        Sees manager service entry ∧ entry.object = object)
      (fun _ => relation service) := by
  unfold entries currentSets
  simp only [ensures_bind, ensures_get, ensures_pure]
  refine (ensures_read _ _).mono ?_ fun _ _ wrong => wrong
  rintro stored after ⟨related, rfl, -⟩
  refine ⟨related, fun entry member => ?_⟩
  rcases List.mem_append.mp member with kept | unseen
  · obtain ⟨holds, same⟩ := numbered.mem_entriesOn.mp (List.mem_filter.mp kept).1
    exact ⟨.inl holds, same⟩
  · obtain ⟨added, suits⟩ := List.mem_filter.mp unseen
    exact ⟨sees_of_added added, by simp_all⟩

end Sees

/-! ### Dependencies -/

/-- A change of the dependencies changes no grant. -/
theorem keeps_storeChange {kind : StoreCall} {answer : Store → Except StoreError Store}
    (entries : ∀ {store changed}, answer store = .ok changed → changed.entries = store.entries)
    (lastId : ∀ {store changed}, answer store = .ok changed → changed.lastId = store.lastId) :
    Keeps Quiet (StoreClient.change kind answer) := by
  intro service
  refine (ensures_storeChange kind answer).mono ?_ ?_
  · rintro _ after ⟨store, result, rfl⟩
    exact .of_same rfl (entries result) (lastId result) rfl rfl rfl
  · rintro _ after ⟨_, rfl⟩
    exact .of_same rfl rfl rfl rfl rfl rfl

theorem createDependency_entries {store changed : Store} {dependency : Dependency}
    (result : store.createDependency dependency = .ok changed) :
    changed.entries = store.entries ∧ changed.lastId = store.lastId := by
  unfold Store.createDependency at result
  split at result
  · exact nomatch result
  split at result
  · exact nomatch result
  split at result
  · exact nomatch result
  obtain rfl := Except.ok.inj result
  exact ⟨rfl, rfl⟩

theorem keeps_createDependency (dependency : Dependency) :
    Keeps Quiet (StoreClient.createDependency dependency) :=
  keeps_storeChange (fun result => (createDependency_entries result).1)
    fun result => (createDependency_entries result).2

theorem keeps_deleteDependency (parent child : EntryId) :
    Keeps Quiet (StoreClient.deleteDependency parent child) :=
  keeps_storeChange (fun result => Except.ok.inj result ▸ rfl)
    fun result => Except.ok.inj result ▸ rfl

theorem keeps_linkEntries (parent child : Entry) (kind : DependencyKind) :
    Keeps Quiet (linkEntries parent child kind) := by
  unfold linkEntries
  refine .bind (.ofStore (keeps_storeRead _ _)) fun known => ?_
  split
  · refine .bind (.ofStore (keeps_createDependency _)) fun _ => ?_
    exact keeps_record _
  · exact .pure

/-! ### Inside a transaction -/

/-- A relation that is kept by whatever a grant consists of, once a transaction is open. -/
class KeptByGranting (manager : ManagerId) (relation : Service → Service → Prop) : Prop
    extends KeptByReading relation where
  isOpen : ∀ {before after : Service}, relation before after → IsOpen manager before →
    IsOpen manager after
  insertEntry : ∀ {service : Service} (identity object role), IsOpen manager service →
    KeepsAt relation service (insertEntry manager identity object role)
  linkEntries : ∀ parent child kind, Keeps relation (linkEntries parent child kind)

instance : KeptByReading (Writes manager .grant) :=
  .mono fun _ _ => .ofQuiet

instance : KeptByGranting manager (Writes manager .grant) where
  isOpen writes := writes.isOpen
  insertEntry identity object role opened :=
    (ensures_insertEntry identity object role opened).mono
      (fun _ _ ⟨⟨_, created⟩, _⟩ => .single (.created created)) fun _ _ ⟨quiet, _⟩ => .ofQuiet quiet
  linkEntries parent child kind := (keeps_linkEntries parent child kind).mono fun _ _ => .ofQuiet

/-- The relation holds for what is called inside a transaction. -/
def Inside (manager : ManagerId) (relation : Service → Service → Prop) (before after : Service) :
    Prop :=
  IsOpen manager before → relation before after

section Inside

variable {relation : Service → Service → Prop} [KeptByGranting manager relation]

instance : IsPreorder Service (Inside manager relation) where
  refl service _ := refl service
  trans _ _ _ first second opened := IsTrans.trans _ _ _ (first opened)
    (second (KeptByGranting.isOpen (first opened) opened))

/-- What is kept anywhere is kept inside a transaction. -/
theorem keeps_inside {relation : Service → Service → Prop} {ε α : Type}
    {action : ExceptT ε (StateM Service) α} (keeps : Keeps relation action) :
    Keeps (Inside manager relation) action :=
  keeps.mono fun _ _ related _ => related

/-- What is done behind the check for a transaction is done inside one. -/
theorem keeps_requireTransaction_bind {α : Type} {rest : Unit → Action α}
    (keeps : Keeps (Inside manager relation) (rest ())) :
    Keeps relation (requireTransaction manager >>= rest) := fun service =>
  keepsAt_requireTransaction_bind fun opened =>
    KeepsAt.mono (keeps service) fun _ inside => inside opened

theorem keeps_insertEntry (identity : Identity) (object : ObjectRef) (role : Role) :
    Keeps (Inside manager relation) (insertEntry manager identity object role) := by
  intro service
  by_cases opened : IsOpen manager service
  · exact (KeptByGranting.insertEntry identity object role opened).mono fun _ related _ => related
  · unfold Ensures
    split
    all_goals exact fun isOpen => absurd isOpen opened

/-! ### Propagation -/

theorem keeps_validateRole {relation : Service → Service → Prop} [IsPreorder Service relation]
    (object : ObjectRef) (role : Role) : Keeps relation (validateRole object role) := by
  unfold validateRole
  refine .bind .get fun service => ?_
  split
  · exact .throw
  · split
    · exact .throw
    · exact .pure

/-- The class of the object has the role, or nothing is done. -/
theorem ensures_validateRole {service : Service} (object : ObjectRef) (role : Role) :
    Ensures (validateRole object role) service
      (fun _ after => service.registry.allows object.objectClass role = true ∧ after = service)
      (fun _ after => service.registry.allows object.objectClass role = false ∧
        after = service) := by
  unfold validateRole Registry.allows
  simp only [ensures_bind, ensures_get]
  split
  · rename_i absent
    exact ensures_throw.mpr ⟨by rw [absent]; rfl, rfl⟩
  · rename_i type found
    rw [found]
    cases allows : type.allows role with
    | true => exact ensures_pure.mpr ⟨allows, rfl⟩
    | false => exact ensures_throw.mpr ⟨allows, rfl⟩

theorem keeps_grantChild {descend : Entry → Action Unit}
    (descends : ∀ entry, Keeps (Inside manager relation) (descend entry)) (parent : Entry)
    (child : ObjectRef) (role : Role) (kind : DependencyKind) :
    Keeps relation (grantChild descend manager parent child role kind) := by
  have links (entry : Entry) : Keeps (Inside manager relation) (do
      linkEntries parent entry kind
      return some entry) :=
    .bind (keeps_inside (KeptByGranting.linkEntries manager _ _ _)) fun _ => .pure
  unfold grantChild
  refine keeps_requireTransaction_bind ?_
  refine .bind .get fun service => ?_
  split
  · exact .pure
  · refine .bind (keeps_validateRole child role) fun _ => ?_
    refine .bind (keeps_inside (keeps_getEntry _ _ _)) fun found => ?_
    split
    · exact .bind .pure links
    · refine .bind (keeps_insertEntry _ _ _) fun entry => ?_
      exact .bind (descends entry) fun _ => .bind .pure links

theorem keeps_applyRule {descend : Entry → Action Unit}
    (descends : ∀ entry, Keeps (Inside manager relation) (descend entry)) (entry : Entry)
    (rule : PropagationRule) :
    Keeps (Inside manager relation) (applyRule descend manager entry rule) := by
  unfold applyRule
  refine .bind .get fun service => ?_
  split
  · exact .pure
  · refine .bind (keeps_inside (.ofStore (KeptByReading.children _ _))) fun children => ?_
    refine .forM fun child => ?_
    exact .bind (keeps_inside (keeps_grantChild descends _ _ _ _)) fun _ => .pure

theorem keeps_propagate (depth : Nat) (entry : Entry) :
    Keeps (Inside manager relation) (propagate depth manager entry) := by
  induction depth generalizing entry with
  | zero => exact .pure
  | succ depth ih =>
    unfold propagate
    refine .bind .get fun service => ?_
    exact .forM fun rule => keeps_applyRule ih entry rule

theorem keeps_propagateFrom (entry : Entry) :
    Keeps (Inside manager relation) (propagateFrom manager entry) := by
  unfold propagateFrom
  exact .bind .get fun service => keeps_propagate _ entry

/-! ### The calls -/

theorem keeps_propagateToChild (parent : Entry) (child : ObjectRef) (role : Role)
    (kind : DependencyKind) : Keeps relation (propagateToChild manager parent child role kind) :=
  keeps_grantChild keeps_propagateFrom parent child role kind

theorem keeps_createEntry (identity : Identity) (object : ObjectRef) (role : Role) :
    Keeps relation (createEntry manager identity object role) := by
  unfold createEntry
  split
  · exact .pure
  · refine keeps_requireTransaction_bind ?_
    refine .bind (keeps_validateRole object role) fun _ => ?_
    refine .bind (keeps_inside (keeps_getEntry _ _ _)) fun found => ?_
    split
    · exact .pure
    · refine .bind (keeps_insertEntry _ _ _) fun entry => ?_
      exact .bind (keeps_propagateFrom entry) fun _ => .pure

theorem keeps_passOn (childType : ObjectType) (child : ObjectRef) (parents : List Entry) :
    Keeps (Inside manager relation) (passOn manager childType child parents) := by
  induction parents with
  | nil => exact .pure
  | cons parent parents ih =>
    unfold passOn
    split
    · refine .bind (keeps_inside (keeps_propagateToChild _ _ _ _)) fun created => ?_
      exact .bind ih fun _ => .pure
    · refine .bind .pure fun created => ?_
      exact .bind ih fun _ => .pure

theorem keeps_createEntriesForChild (parent child : ObjectRef) :
    Keeps relation (createEntriesForChild manager parent child) := by
  unfold createEntriesForChild
  refine keeps_requireTransaction_bind ?_
  refine .bind .get fun service => ?_
  split
  · exact .throw
  · exact .bind (keeps_inside (keeps_entries parent)) fun parents => keeps_passOn _ child parents

end Inside

end BookingAccess.Manager
