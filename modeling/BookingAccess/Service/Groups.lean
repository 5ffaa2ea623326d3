/-
**Groups.**

Groups live in the directory, except for the built-in group of all users, which is known without
asking and cannot be changed. A change of a group goes to the directory first and then to the
cache; users whose membership changed lose their projection.

* `Service.group`, `Service.groupIdByName`, `Service.groupMembers`, `Service.usersOf` ask;
* `Service.createGroup`, `Service.modifyGroup`, `Service.deleteGroup`, `Service.addGroupUser` and
  `Service.removeGroupUser` change.
-/

import BookingAccess.Service.Collaborators
import BookingAccess.Service.Remembering

namespace BookingAccess.Service

/-! ### Questions -/

def group (group : GroupId) : Action Group := do
  if group == everyoneGroupId then return .everyone
  let found ← rememberedGroup group do
    match ← (DirectoryClient.group group).outcome with
    | .ok found => return some found
    | .error (.groupNotFound _) => return none
    | .error fault => throw (.ofDirectory fault)
  match found with
  | some found => return found
  | none => throw (.groupNotFound group)

/-- The number of a group. Only names that exist are remembered. -/
def groupIdByName (name : String) : Action GroupId := do
  if name == everyoneGroupName then return everyoneGroupId
  match (← get).cache.groupIdOfName[name]? with
  | some group => return group
  | none =>
    let group ← .ofDirectory (DirectoryClient.groupIdOfName name)
    modifyCache fun cache => cache.putGroupIdOfName name group
    return group

def groupMembers (group : GroupId) : Action UserIds := do
  if group == everyoneGroupId then return .everyone
  rememberedGroupMembers group do
    return .only (← .ofDirectory (DirectoryClient.groupMembers group))

/-- The users that an identity stands for. -/
def usersOf : Identity → Action UserIds
  | .user user => return .single user
  | .group group => groupMembers group

/-- The groups of the directory, behind the built-in one. -/
def listGroups (ids : Option (List GroupId)) (kinds : Option (List GroupKind)) :
    Action (List Group) := do
  return Group.everyone :: (← .ofDirectory (DirectoryClient.listGroups ids kinds))

/-! ### Changes -/

/-- Create a group and give its number. The name of the built-in group is taken. -/
def createGroup (group : Group) : Action GroupId := do
  if Group.isEveryoneName group.name then throw (.groupAlreadyExists group.name)
  let id ← .ofDirectory (DirectoryClient.createGroup group)
  modifyCache fun cache =>
    cache.putGroup { group with id := id } |>.putGroupIdOfName group.name id
  return id

def modifyGroup (group : Group) : Action Unit := do
  if group.isEveryone then throw .everyoneGroupImmutable
  .ofDirectory (DirectoryClient.modifyGroup group)
  modifyCache fun cache => cache.putGroup group

def deleteGroup (group : GroupId) : Action Unit := do
  if group == everyoneGroupId then throw .everyoneGroupImmutable
  let members ← groupMembers group
  .ofDirectory (DirectoryClient.deleteGroup group)
  modifyCache fun cache =>
    members.toList.foldl Cache.removeUserProjection (cache.removeGroup group)

/-- The cache after the members of a group changed by this user. -/
def membershipChanged (group : GroupId) (user : UserId) (change : UserIds → UserIds)
    (cache : Cache) : Cache :=
  let cache := match cache.groupMembers[group]? with
    | some members => cache.putGroupMembers group (change members)
    | none => cache
  cache.removeUserProjection user

def addGroupUser (group : GroupId) (user : UserId) : Action Unit := do
  if group == everyoneGroupId then throw .everyoneGroupImmutable
  .ofDirectory (DirectoryClient.addMember group user)
  modifyCache (membershipChanged group user (·.insert user))

def removeGroupUser (group : GroupId) (user : UserId) : Action Unit := do
  if group == everyoneGroupId then throw .everyoneGroupImmutable
  .ofDirectory (DirectoryClient.removeMember group user)
  modifyCache (membershipChanged group user (·.erase user))

end BookingAccess.Service
