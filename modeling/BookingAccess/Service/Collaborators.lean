/-
**Asking the collaborators.**

Every question to the store, the directory and the graph goes through here. A collaborator that
cannot be reached refuses the call, and the call does not reach it.

* `StoreClient`, `DirectoryClient` and `GraphClient` hold one action for each question;
* `Action.ofStore`, `Action.ofDirectory`: their faults as faults of the service.
-/

import BookingAccess.Service.Basic

namespace BookingAccess

/-- A question to the store or to the graph. -/
abbrev StoreAction := ExceptT StoreError (StateM Service)

/-- A question to the directory. -/
abbrev DirectoryAction := ExceptT DirectoryError (StateM Service)

def Action.ofStore {α : Type} (action : StoreAction α) : Action α :=
  action.adapt AccessError.storage

def Action.ofDirectory {α : Type} (action : DirectoryAction α) : Action α :=
  action.adapt AccessError.ofDirectory

/-- The outcome of a question as a value. -/
def DirectoryAction.outcome {α : Type} (action : DirectoryAction α) :
    Action (Except DirectoryError α) :=
  ExceptT.lift action.run

namespace StoreClient

/-- A call that the store answers, unless it cannot be reached. -/
def call {α : Type} (kind : StoreCall) (answer : Store → Except StoreError (α × Store)) :
    StoreAction α := do
  let service ← get
  set { service with calls := service.calls + 1 }
  match service.outages.store service.calls kind with
  | some cause => throw (.internal cause)
  | none =>
    let (value, store) ← ExceptT.mk (pure (answer service.store))
    modify fun service => { service with store := store }
    return value

def read {α : Type} (kind : StoreCall) (answer : Store → α) : StoreAction α :=
  call kind fun store => .ok (answer store, store)

def change (kind : StoreCall) (answer : Store → Except StoreError Store) : StoreAction Unit :=
  call kind fun store => (answer store).map ((), ·)

def createEntry (identity : Identity) (object : ObjectRef) (role : Role) : StoreAction Entry :=
  call .createEntry fun store => store.createEntry identity object role

def deleteEntry (id : EntryId) : StoreAction Unit :=
  change .deleteEntry fun store => store.deleteEntry id

def getEntry (id : EntryId) : StoreAction (Option Entry) :=
  read .getEntry fun store => store.get? id

def findEntry (identity : Identity) (object : ObjectRef) (role : Role) :
    StoreAction (Option Entry) :=
  read .findEntry fun store => store.find? identity object role

def entriesOn (object : ObjectRef) : StoreAction (List Entry) :=
  read .listEntriesByObject fun store => store.entriesOn object

def entriesOf (identities : List Identity) : StoreAction (List Entry) :=
  read .listEntriesByIdentities fun store => store.entriesOf identities

def createDependency (dependency : Dependency) : StoreAction Unit :=
  change .createDependency fun store => store.createDependency dependency

def findDependency (parent child : EntryId) : StoreAction (Option Dependency) :=
  read .findDependency fun store => store.findDependency? parent child

def dependenciesOfParent (parent : EntryId) : StoreAction (List Dependency) :=
  read .listDependenciesByParent fun store => store.dependenciesOfParent parent

def dependenciesOfChild (child : EntryId) : StoreAction (List Dependency) :=
  read .listDependenciesByChild fun store => store.dependenciesOfChild child

def dependenciesInto (object : ObjectRef) : StoreAction (List Dependency) :=
  read .listDependenciesByChildObject fun store => store.dependenciesInto object

def deleteDependency (parent child : EntryId) : StoreAction Unit :=
  change .deleteDependency fun store => .ok (store.deleteDependency parent child)

end StoreClient

namespace DirectoryClient

/-- A call that the directory answers and counts, unless it cannot be reached. -/
def call {α : Type} (kind : DirectoryCall)
    (answer : Directory → Except DirectoryError (α × Directory)) : DirectoryAction α := do
  let service ← get
  set { service with calls := service.calls + 1 }
  match service.outages.directory service.calls kind with
  | some cause => throw (.unavailable cause)
  | none =>
    modify fun service => { service with lookups := service.lookups + 1 }
    let (value, directory) ← ExceptT.mk (pure (answer service.directory))
    modify fun service => { service with directory := directory }
    return value

def read {α : Type} (kind : DirectoryCall) (answer : Directory → Except DirectoryError α) :
    DirectoryAction α :=
  call kind fun directory => (answer directory).map (·, directory)

def change (kind : DirectoryCall) (answer : Directory → Except DirectoryError Directory) :
    DirectoryAction Unit :=
  call kind fun directory => (answer directory).map ((), ·)

def userOfToken (token : AccessToken) : DirectoryAction User :=
  read .userDataByToken fun directory => directory.userOfToken token

def userById (user : UserId) : DirectoryAction User :=
  read .userDataById fun directory => directory.userById user

def userIdOfPrincipal (name : String) : DirectoryAction UserId :=
  read .userIdByPrincipalName fun directory => directory.userIdOfPrincipal name

def group (group : GroupId) : DirectoryAction Group :=
  read .group fun directory => directory.group group

def groupIdOfName (name : String) : DirectoryAction GroupId :=
  read .groupIdByName fun directory => directory.groupIdOfName name

def groupMembers (group : GroupId) : DirectoryAction (Std.ExtTreeSet UserId) :=
  read .groupMemberIds fun directory => directory.groupMembers group

def groupsOfUser (user : UserId) : DirectoryAction (List GroupId) :=
  read .userGroupIds fun directory => directory.groupsOfUser user

def listGroups (ids : Option (List GroupId)) (kinds : Option (List GroupKind)) :
    DirectoryAction (List Group) :=
  read .listGroups fun directory => .ok (directory.listGroups ids kinds)

def createGroup (group : Group) : DirectoryAction GroupId :=
  call .createGroup fun directory => directory.createGroup group

def modifyGroup (group : Group) : DirectoryAction Unit :=
  change .modifyGroup fun directory => directory.modifyGroup group

def deleteGroup (group : GroupId) : DirectoryAction Unit :=
  change .deleteGroup fun directory => directory.deleteGroup group

def addMember (group : GroupId) (user : UserId) : DirectoryAction Unit :=
  change .addGroupUser fun directory => directory.addMember group user

def removeMember (group : GroupId) (user : UserId) : DirectoryAction Unit :=
  change .removeGroupUser fun directory => directory.removeMember group user

end DirectoryClient

namespace GraphClient

/-- The children of an object along a relation, unless the graph cannot be reached. -/
def children (parent : ObjectRef) (relation : String) : StoreAction (List ObjectRef) := do
  let service ← get
  set { service with calls := service.calls + 1 }
  match service.outages.graph service.calls with
  | some cause => throw (.internal cause)
  | none => return service.graph.children parent relation

end GraphClient

end BookingAccess
