/-
**What reading leaves alone.**

A question asks the collaborators, remembers what they say and loads projections. A relation between
the states before and after that is kept by each of these is kept by every question. Four such
relations are of use: reading changes no grant, it leaves the store as it is, with the dependencies
between entries, it leaves the world around the service as it is, and the administration modes.

* `KeptByReading`: the relations that reading keeps; `Quiet` is one;
* `KeptByAsking`: those for which the cache does not matter, so they are kept by reading;
* `Steady`: the store, the registry and the transactions stay as they are; it is one of them;
* `SameWorld`: so do the graph of objects and the outages;
* `SameModes`: so do the administration modes, where none is switched; `KeptBySwitching`: relations
  for which that does not matter.
-/

import BookingAccess.Proofs.Service.Loading
import BookingAccess.Service.ObjectAccess

namespace BookingAccess.Service

variable {α : Type}

/-- A relation that is kept by whatever a question consists of. -/
class KeptByReading (relation : Service → Service → Prop) : Prop
    extends IsPreorder Service relation where
  aside : ∀ {service : Service} {cache : Cache}, Aside service.cache cache →
    relation service { service with cache := cache }
  record : ∀ event, Keeps relation (record event)
  storeRead : ∀ {α : Type} (kind : StoreCall) (answer : Store → α),
    Keeps relation (StoreClient.read kind answer)
  directoryRead : ∀ {α : Type} (kind : DirectoryCall)
    (answer : Directory → Except DirectoryError α),
    Keeps relation (DirectoryClient.read kind answer)
  children : ∀ parent name, Keeps relation (GraphClient.children parent name)
  groupMembers : ∀ group, Keeps relation (groupMembers group)
  loadedUserProjection : ∀ user, Keeps relation (loadedUserProjection user)
  loadedObjectProjection : ∀ object, Keeps relation (loadedObjectProjection object)

instance : KeptByReading Quiet where
  aside := Quiet.aside
  record := keeps_record
  storeRead := keeps_storeRead
  directoryRead := keeps_directoryRead
  children := keeps_children
  groupMembers group _ :=
    (ensures_groupMembers group).mono (fun _ _ => And.right) fun _ _ => And.right
  loadedUserProjection user _ :=
    (ensures_loadedUserProjection user).mono (fun _ _ => And.right) fun _ _ => And.right
  loadedObjectProjection object _ :=
    (ensures_loadedObjectProjection object).mono (fun _ _ => And.right) fun _ _ => And.right

/-- A relation that does not look at administration modes. One question switches them. -/
class KeptBySwitching (relation : Service → Service → Prop) : Prop where
  setMode : ∀ token mode, Keeps relation (setMode token mode)

instance : KeptBySwitching Quiet where
  setMode _ _ := .modify fun _ => Quiet.of_same rfl rfl rfl rfl rfl rfl

namespace KeptByReading

variable {relation : Service → Service → Prop} [KeptByReading relation]

theorem modifyCache {change : Cache → Cache} (aside : ∀ cache, Aside cache (change cache)) :
    Keeps relation (modifyCache change) :=
  fun service => KeptByReading.aside (aside service.cache)

/-- A question that is remembered in a part of the cache that no projection is made of. -/
theorem remembered {look : Cache → Option α} {keep : Cache → α → Cache} {load : Action α}
    (aside : ∀ cache answer, Aside cache (keep cache answer)) (loads : Keeps relation load) :
    Keeps relation (remembered look keep load) := by
  unfold Service.remembered
  refine .bind .get fun service => ?_
  split
  · exact .pure
  · refine .bind loads fun answer => ?_
    exact .bind (modifyCache fun cache => aside cache answer) fun _ => .pure

/-- Reading keeps two relations together. -/
instance {other : Service → Service → Prop} [KeptByReading other] :
    KeptByReading fun before after => relation before after ∧ other before after where
  refl service := ⟨refl service, refl service⟩
  trans _ _ _ first second :=
    ⟨IsTrans.trans _ _ _ first.1 second.1, IsTrans.trans _ _ _ first.2 second.2⟩
  aside same := ⟨aside same, aside same⟩
  record event service := (record event service).and (record event service)
  storeRead kind answer service :=
    (storeRead kind answer service).and (storeRead kind answer service)
  directoryRead kind answer service :=
    (directoryRead kind answer service).and (directoryRead kind answer service)
  children parent name service := (children parent name service).and (children parent name service)
  groupMembers group service := (groupMembers group service).and (groupMembers group service)
  loadedUserProjection user service :=
    (loadedUserProjection user service).and (loadedUserProjection user service)
  loadedObjectProjection object service :=
    (loadedObjectProjection object service).and (loadedObjectProjection object service)

/-- Reading keeps what follows from a relation that it keeps. -/
theorem mono {weaker : Service → Service → Prop} [IsPreorder Service weaker]
    (follows : ∀ before after, relation before after → weaker before after) :
    KeptByReading weaker where
  aside same := follows _ _ (aside same)
  record event := (record event).mono follows
  storeRead kind answer := (storeRead kind answer).mono follows
  directoryRead kind answer := (directoryRead kind answer).mono follows
  children parent name := (children parent name).mono follows
  groupMembers group := (groupMembers group).mono follows
  loadedUserProjection user := (loadedUserProjection user).mono follows
  loadedObjectProjection object := (loadedObjectProjection object).mono follows

end KeptByReading

/-! ### Whatever happens to the cache -/

/-- A relation that is kept by questions to the collaborators and by whatever happens to the
cache. -/
class KeptByAsking (relation : Service → Service → Prop) : Prop
    extends IsPreorder Service relation where
  modifyCache : ∀ {change : Cache → Cache}, Keeps relation (modifyCache change)
  record : ∀ event, Keeps relation (record event)
  storeRead : ∀ {α : Type} (kind : StoreCall) (answer : Store → α),
    Keeps relation (StoreClient.read kind answer)
  directoryRead : ∀ {α : Type} (kind : DirectoryCall)
    (answer : Directory → Except DirectoryError α),
    Keeps relation (DirectoryClient.read kind answer)
  children : ∀ parent name, Keeps relation (GraphClient.children parent name)

namespace KeptByAsking

variable {relation : Service → Service → Prop} [KeptByAsking relation]

theorem groupMembers (group : GroupId) : Keeps relation (groupMembers group) := by
  unfold Service.groupMembers rememberedGroupMembers remembered
  split
  · exact .pure
  · refine .bind .get fun service => ?_
    split
    · exact .pure
    · exact .bind (.bind (.ofDirectory (directoryRead _ _)) fun _ => .pure) fun _ =>
        .bind modifyCache fun _ => .pure

theorem usersOf (identity : Identity) : Keeps relation (usersOf identity) := by
  cases identity with
  | user user => exact .pure
  | group group => exact groupMembers group

theorem resolveUsers (identity : Identity) : Keeps relation (resolveUsers identity) := by
  unfold Service.resolveUsers
  refine .tryCatch (usersOf identity) fun fault => ?_
  split
  · exact .bind (record _) fun _ => .pure
  · exact .throw

theorem loadUserProjection (user : UserId) : Keeps relation (loadUserProjection user) := by
  have reads (groups : List GroupId) : Keeps relation (do
      let identities := .user user :: .everyone :: groups.map Identity.group
      let entries ← Action.ofStore (StoreClient.entriesOf identities)
      Service.modifyCache fun cache => entries.foldl Cache.putEntry cache
      return UserProjection.ofEntries (← MonadState.get).registry entries) :=
    .bind (.ofStore (storeRead _ _)) fun _ => .bind modifyCache fun _ => .bind .get fun _ => .pure
  unfold Service.loadUserProjection
  refine .bind (.outcome (directoryRead _ _)) fun outcome => ?_
  split
  · exact .bind .pure reads
  · exact .bind .pure reads
  · exact .bind .throw reads

theorem loadedUserProjection (user : UserId) : Keeps relation (loadedUserProjection user) := by
  unfold Service.loadedUserProjection rememberedUserProjection
  refine .bind .get fun service => ?_
  split
  · exact .pure
  · exact .bind (loadUserProjection user) fun _ => .bind .get fun _ =>
      .bind modifyCache fun _ => .pure

theorem resolveEntries (projection : ObjectProjection) (entries : List Entry) :
    Keeps relation (resolveEntries projection entries) := by
  induction entries generalizing projection with
  | nil => exact .pure
  | cons entry entries ih =>
    exact .bind (resolveUsers entry.identity) fun _ => .bind modifyCache fun _ => ih _

theorem loadedObjectProjection (object : ObjectRef) :
    Keeps relation (loadedObjectProjection object) := by
  have loads : Keeps relation (loadObjectProjection object) :=
    .bind (.ofStore (storeRead _ _)) fun _ => resolveEntries _ _
  unfold Service.loadedObjectProjection rememberedObjectProjection
  refine .bind .get fun service => ?_
  split
  · exact .pure
  · exact .bind loads fun _ => .bind .get fun _ => .bind modifyCache fun _ => .pure

/-- So it is kept by every question. -/
instance : KeptByReading relation where
  aside {service cache} _ :=
    (modifyCache : Keeps relation (Service.modifyCache fun _ => cache)) service
  record := record
  storeRead := storeRead
  directoryRead := directoryRead
  children := children
  groupMembers := groupMembers
  loadedUserProjection := loadedUserProjection
  loadedObjectProjection := loadedObjectProjection

end KeptByAsking

/-! ### The store stays as it is -/

/-- The store, the registry and the open transactions are the same. -/
structure Steady (before after : Service) : Prop where
  store : after.store = before.store
  registry : after.registry = before.registry
  transactions : after.transactions = before.transactions

namespace Steady

instance : IsPreorder Service Steady where
  refl _ := ⟨rfl, rfl, rfl⟩
  trans _ _ _ first second := ⟨second.store.trans first.store,
    second.registry.trans first.registry, second.transactions.trans first.transactions⟩

theorem ofEq {before after : Service} (same : after = before) : Steady before after :=
  same ▸ refl after

theorem storeRead (kind : StoreCall) (answer : Store → α) :
    Keeps Steady (StoreClient.read kind answer) := by
  intro service
  refine (ensures_storeCall kind _).mono ?_ fun _ _ ⟨_, asked⟩ => asked ▸ ⟨rfl, rfl, rfl⟩
  rintro value after ⟨store, result, rfl⟩
  obtain ⟨-, rfl⟩ := Prod.mk.inj (Except.ok.inj result)
  exact ⟨rfl, rfl, rfl⟩

theorem directoryCall (kind : DirectoryCall)
    (answer : Directory → Except DirectoryError (α × Directory)) :
    Keeps Steady (DirectoryClient.call kind answer) := fun _ =>
  (ensures_directoryCall kind answer).mono (fun _ _ ⟨_, _, asked⟩ => asked ▸ ⟨rfl, rfl, rfl⟩)
    fun _ _ ⟨_, _, asked⟩ => asked ▸ ⟨rfl, rfl, rfl⟩

instance : KeptByAsking Steady where
  modifyCache _ := ⟨rfl, rfl, rfl⟩
  record _ _ := ⟨rfl, rfl, rfl⟩
  storeRead := storeRead
  directoryRead kind _ := directoryCall kind _
  children _ _ _ := (ensures_children _ _).mono (fun _ _ ⟨_, asked⟩ => asked ▸ ⟨rfl, rfl, rfl⟩)
    fun _ _ ⟨_, asked⟩ => asked ▸ ⟨rfl, rfl, rfl⟩

instance : KeptBySwitching Steady where
  setMode _ _ := .modify fun _ => ⟨rfl, rfl, rfl⟩

end Steady

/-! ### The world around the service stays as it is -/

/-- The objects are the same, and the collaborators can be reached as before. -/
structure SameWorld (before after : Service) : Prop where
  graph : after.graph = before.graph
  outages : after.outages = before.outages

namespace SameWorld

instance : IsPreorder Service SameWorld where
  refl _ := ⟨rfl, rfl⟩
  trans _ _ _ first second :=
    ⟨second.graph.trans first.graph, second.outages.trans first.outages⟩

instance : KeptByAsking SameWorld where
  modifyCache _ := ⟨rfl, rfl⟩
  record _ _ := ⟨rfl, rfl⟩
  storeRead _ _ _ := (ensures_storeCall _ _).mono
    (fun _ _ ⟨_, _, asked⟩ => asked ▸ ⟨rfl, rfl⟩) fun _ _ ⟨_, asked⟩ => asked ▸ ⟨rfl, rfl⟩
  directoryRead _ _ _ := (ensures_directoryCall _ _).mono
    (fun _ _ ⟨_, _, asked⟩ => asked ▸ ⟨rfl, rfl⟩) fun _ _ ⟨_, _, asked⟩ => asked ▸ ⟨rfl, rfl⟩
  children _ _ _ := (ensures_children _ _).mono (fun _ _ ⟨_, asked⟩ => asked ▸ ⟨rfl, rfl⟩)
    fun _ _ ⟨_, asked⟩ => asked ▸ ⟨rfl, rfl⟩

instance : KeptBySwitching SameWorld where
  setMode _ _ := .modify fun _ => ⟨rfl, rfl⟩

end SameWorld

/-! ### Administration modes stay as they are -/

/-- The administration modes of callers are the same. -/
def SameModes (before after : Service) : Prop := after.modes = before.modes

namespace SameModes

instance : IsPreorder Service SameModes where
  refl _ := rfl
  trans _ _ _ first second := Eq.trans second first

instance : KeptByAsking SameModes where
  modifyCache _ := rfl
  record _ _ := rfl
  storeRead _ _ _ := (ensures_storeCall _ _).mono
    (fun _ _ ⟨_, _, asked⟩ => asked ▸ rfl) fun _ _ ⟨_, asked⟩ => asked ▸ rfl
  directoryRead _ _ _ := (ensures_directoryCall _ _).mono
    (fun _ _ ⟨_, _, asked⟩ => asked ▸ rfl) fun _ _ ⟨_, _, asked⟩ => asked ▸ rfl
  children _ _ _ := (ensures_children _ _).mono (fun _ _ ⟨_, asked⟩ => asked ▸ rfl)
    fun _ _ ⟨_, asked⟩ => asked ▸ rfl

end SameModes

end BookingAccess.Service
