/-
**Projections of the store.**

What a user holds and who holds what on an object is read from the store once and then kept. An
entry that a commit adds or removes is worked into the projections that it touches.

* `Service.userProjection`, `Service.objectProjection`: from the cache or else from the store;
* `Service.applyAddition`, `Service.applyRemoval`: one entry comes or goes.
-/

import BookingAccess.Service.Groups

namespace BookingAccess.Service

/-! ### Loading -/

/-- What the store says a user holds: by a grant to the user, to everyone or to a group of the
user. A user whom the directory does not know has no groups. -/
def loadUserProjection (user : UserId) : Action UserProjection := do
  let groups ← match ← (DirectoryClient.groupsOfUser user).outcome with
    | .ok groups => pure groups
    | .error (.userNotFound _) => pure []
    | .error fault => throw (.ofDirectory fault)
  let identities := .user user :: .everyone :: groups.map Identity.group
  let entries ← .ofStore (StoreClient.entriesOf identities)
  modifyCache fun cache => entries.foldl Cache.putEntry cache
  return .ofEntries (← get).registry entries

def loadedUserProjection (user : UserId) : Action (Loaded UserProjection) :=
  rememberedUserProjection user (loadUserProjection user)

def userProjection (user : UserId) : Action UserProjection := do
  return (← loadedUserProjection user).value

/-- The users that an identity stands for; a group that does not exist stands for nobody. -/
def resolveUsers (identity : Identity) : Action UserIds :=
  tryCatch (usersOf identity) fun
    | .groupNotFound group => do
      record (.unknownGroupInEntry group)
      return .empty
    | fault => throw fault

/-- Work the entries on an object into a projection, one after another. -/
def resolveEntries (projection : ObjectProjection) : List Entry → Action ObjectProjection
  | [] => return projection
  | entry :: entries => do
    let users ← resolveUsers entry.identity
    modifyCache fun cache => cache.putEntry entry
    resolveEntries (projection.add entry users).2 entries

/-- Who holds what on an object, as the store says. -/
def loadObjectProjection (object : ObjectRef) : Action ObjectProjection := do
  resolveEntries .empty (← .ofStore (StoreClient.entriesOn object))

def loadedObjectProjection (object : ObjectRef) : Action (Loaded ObjectProjection) :=
  rememberedObjectProjection object (loadObjectProjection object)

def objectProjection (object : ObjectRef) : Action ObjectProjection := do
  return (← loadedObjectProjection object).value

/-! ### Changes -/

def updateUserProjection (user : UserId) (change : UserProjection → UserProjection) :
    Action Unit :=
  modifyCache fun cache =>
    { cache with userProjections := cache.userProjections.update user change }

def updateUserProjections (change : UserProjection → UserProjection) : Action Unit :=
  modifyCache fun cache =>
    { cache with userProjections := cache.userProjections.updateAll change }

def updateObjectProjection (object : ObjectRef) (change : ObjectProjection → ObjectProjection) :
    Action Unit :=
  modifyCache fun cache =>
    { cache with objectProjections := cache.objectProjections.update object change }

/-- Work an added entry into the projections of these users, which are loaded where they are not
in the cache. Root has no projection. -/
def addToUsers (entry : Entry) : List UserId → Action Unit
  | [] => return ()
  | user :: users => do
    if user != rootUserId then
      let _ ← loadedUserProjection user
      let registry := (← get).registry
      updateUserProjection user fun projection => (projection.add registry entry).2
    addToUsers entry users

/-- Work a committed addition into the cache. -/
def applyAddition (entry : Entry) : Action Unit := do
  modifyCache fun cache => cache.putEntry entry
  let members ← resolveUsers entry.identity
  match members with
  | .everyone =>
    let registry := (← get).registry
    updateUserProjections fun projection => (projection.add registry entry).2
  | .only users => addToUsers entry users.toList
  match (← get).cache.objectProjections.get? entry.object with
  | some _ => updateObjectProjection entry.object fun projection =>
      (projection.add entry members).2
  | none =>
    let _ ← loadedObjectProjection entry.object

/-- The users whose projection may hold an entry of this identity: all, where the group does not
exist any more. -/
def usersTouchedBy (identity : Identity) : Action UserIds :=
  tryCatch (usersOf identity) fun
    | .groupNotFound _ => return .everyone
    | fault => throw fault

/-- Take a deleted entry out of the projections of these users, where they are in the cache. -/
def removeFromUsers (entry : Entry) : List UserId → Action Unit
  | [] => return ()
  | user :: users => do
    let registry := (← get).registry
    updateUserProjection user fun projection => (projection.remove registry entry).2
    removeFromUsers entry users

/-- Work a committed deletion into the cache. Nothing is loaded for it. -/
def applyRemoval (entry : Entry) : Action Unit := do
  modifyCache fun cache => cache.removeEntry entry.id
  match ← usersTouchedBy entry.identity with
  | .everyone =>
    let registry := (← get).registry
    updateUserProjections fun projection => (projection.remove registry entry).2
  | .only users => removeFromUsers entry users.toList
  updateObjectProjection entry.object fun projection => (projection.remove entry).2

end BookingAccess.Service
