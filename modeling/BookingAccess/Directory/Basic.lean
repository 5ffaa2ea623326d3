/-
**The directory of users and groups.**

The directory knows users and the tokens that they come with, groups and their members.

* `Directory.userOfToken`, `Directory.groupMembers` and the other questions answer or say why not;
* `Directory.createGroup` gives a new group the number after the largest one in use.
-/

import BookingAccess.Directory.User
import BookingAccess.Directory.Group
import BookingAccess.Text.Numeral

namespace BookingAccess

/-- Why the directory has no answer. -/
inductive DirectoryError
  | userNotFound (user : String)
  | groupNotFound (group : String)
  | groupAlreadyExists (name : String)
  | invalidToken
  /-- The directory cannot be reached. -/
  | unavailable (cause : String)
deriving DecidableEq

def DirectoryError.message : DirectoryError → String
  | .userNotFound user => s!"user '{user}' not found"
  | .groupNotFound group => s!"group '{group}' not found"
  | .groupAlreadyExists name => s!"group '{name}' already exists"
  | .invalidToken => "access token is not valid"
  | .unavailable cause => s!"identity provider unavailable: {cause}"

structure Directory where
  users : Std.ExtTreeMap UserId User
  /-- The users whom tokens belong to. -/
  tokens : Std.ExtTreeMap String UserId
  groups : Std.ExtTreeMap GroupId Group
  members : Std.ExtTreeMap GroupId (Std.ExtTreeSet UserId)
deriving DecidableEq

namespace Directory

def empty : Directory := ⟨∅, ∅, ∅, ∅⟩

instance : Inhabited Directory := ⟨empty⟩

/-! ### What the directory is told from outside -/

def addUser (directory : Directory) (user : User) : Directory :=
  { directory with users := directory.users.insert user.id user }

def addToken (directory : Directory) (token : String) (user : UserId) : Directory :=
  { directory with tokens := directory.tokens.insert token user }

def addGroup (directory : Directory) (group : Group) (members : List UserId) : Directory :=
  { directory with
    groups := directory.groups.insert group.id group
    members := directory.members.insert group.id (.ofList members) }

/-! ### Users -/

def userById (directory : Directory) (user : UserId) : Except DirectoryError User :=
  match directory.users[user]? with
  | some found => .ok found
  | none => .error (.userNotFound user)

def userOfToken (directory : Directory) (token : String) : Except DirectoryError User :=
  match directory.tokens[token]? with
  | some user => directory.userById user
  | none => .error .invalidToken

def userIdOfPrincipal (directory : Directory) (name : String) : Except DirectoryError UserId :=
  match directory.users.values.find? (·.principalNames.contains name) with
  | some user => .ok user.id
  | none => .error (.userNotFound name)

/-! ### Groups -/

def group (directory : Directory) (group : GroupId) : Except DirectoryError Group :=
  match directory.groups[group]? with
  | some found => .ok found
  | none => .error (.groupNotFound group)

def groupIdOfName (directory : Directory) (name : String) : Except DirectoryError GroupId :=
  match directory.groups.values.find? (·.name == name) with
  | some group => .ok group.id
  | none => .error (.groupNotFound name)

def groupMembers (directory : Directory) (group : GroupId) :
    Except DirectoryError (Std.ExtTreeSet UserId) :=
  match directory.members[group]? with
  | some members => .ok members
  | none => .error (.groupNotFound group)

/-- The groups that a known user is a member of. -/
def groupsOfUser (directory : Directory) (user : UserId) :
    Except DirectoryError (List GroupId) :=
  if directory.users.contains user then
    .ok (directory.members.toList.filterMap fun (group, members) =>
      if members.contains user then some group else none)
  else .error (.userNotFound user)

/-- The groups among the given numbers and of the given kinds, sorted by name. -/
def listGroups (directory : Directory) (ids : Option (List GroupId))
    (kinds : Option (List GroupKind)) : List Group :=
  let wanted := directory.groups.values.filter fun group =>
    ids.all (·.contains group.id) && kinds.all (·.contains group.kind)
  wanted.mergeSort fun first second => !(second.name < first.name)

/-! ### Changes to groups -/

/-- The number for a new group: one more than the largest number in use, within 64 bits. -/
def nextGroupId (directory : Directory) : GroupId :=
  let used := directory.groups.keys.filterMap Text.readWord64?
  toString ((used.foldl max 0 + 1) % Nat.pow 2 64)

/-- Add a group under a new number, without members. -/
def createGroup (directory : Directory) (group : Group) :
    Except DirectoryError (GroupId × Directory) :=
  if directory.groups.values.any (·.name == group.name) then
    .error (.groupAlreadyExists group.name)
  else
    let id := directory.nextGroupId
    .ok (id, directory.addGroup { group with id := id } [])

/-- Replace all of a group but its members. -/
def modifyGroup (directory : Directory) (group : Group) : Except DirectoryError Directory :=
  if directory.groups.contains group.id then
    .ok { directory with groups := directory.groups.insert group.id group }
  else .error (.groupNotFound group.id)

def deleteGroup (directory : Directory) (group : GroupId) : Except DirectoryError Directory :=
  if directory.groups.contains group then
    .ok { directory with
      groups := directory.groups.erase group
      members := directory.members.erase group }
  else .error (.groupNotFound group)

/-- Make a known user a member. -/
def addMember (directory : Directory) (group : GroupId) (user : UserId) :
    Except DirectoryError Directory :=
  if directory.users.contains user then
    match directory.members[group]? with
    | some members =>
      .ok { directory with members := directory.members.insert group (members.insert user) }
    | none => .error (.groupNotFound group)
  else .error (.userNotFound user)

def removeMember (directory : Directory) (group : GroupId) (user : UserId) :
    Except DirectoryError Directory :=
  match directory.members[group]? with
  | some members =>
    .ok { directory with members := directory.members.insert group (members.erase user) }
  | none => .error (.groupNotFound group)

end Directory

end BookingAccess
