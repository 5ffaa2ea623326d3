/-
**The cache.**

The cache stands before the store and the directory. Each part maps keys to answers; an answer
that something does not exist is kept too, where a part has room for it. Nothing is lost but what
is removed.

* `Cache.putGroup`, `Cache.removeGroup`: a group that changed takes everything with it that was
  derived from it;
* `Cache.clear` forgets everything.
-/

import BookingAccess.Administration
import BookingAccess.Cache.Shelf
import BookingAccess.Directory.Basic
import BookingAccess.Projection.User
import BookingAccess.Projection.Object

namespace BookingAccess

structure Cache where
  userIdOfToken : Std.ExtTreeMap AccessToken UserId := ∅
  userIdOfPrincipal : Std.ExtTreeMap String (Option UserId) := ∅
  users : Std.ExtTreeMap UserId (Option User) := ∅
  assuranceOfToken : Std.ExtTreeMap AccessToken (Option Assurance) := ∅
  entries : Std.ExtTreeMap EntryId Entry := ∅
  userProjections : Shelf UserId UserProjection := .empty
  objectProjections : Shelf ObjectRef ObjectProjection := .empty
  groups : Std.ExtTreeMap GroupId (Option Group) := ∅
  groupIdOfName : Std.ExtTreeMap String GroupId := ∅
  groupMembers : Std.ExtTreeMap GroupId UserIds := ∅

namespace Cache

def empty : Cache := {}

instance : Inhabited Cache := ⟨empty⟩

/-- The cache without anything in it; projections that are held elsewhere stay readable. -/
def clear (cache : Cache) : Cache where
  userProjections := cache.userProjections.clear
  objectProjections := cache.objectProjections.clear

def putUserIdOfToken (cache : Cache) (token : AccessToken) (user : UserId) : Cache :=
  { cache with userIdOfToken := cache.userIdOfToken.insert token user }

def putUser (cache : Cache) (user : User) : Cache :=
  { cache with users := cache.users.insert user.id (some user) }

def putAssurance (cache : Cache) (token : AccessToken) (assurance : Assurance) : Cache :=
  { cache with assuranceOfToken := cache.assuranceOfToken.insert token (some assurance) }

def putEntry (cache : Cache) (entry : Entry) : Cache :=
  { cache with entries := cache.entries.insert entry.id entry }

def removeEntry (cache : Cache) (id : EntryId) : Cache :=
  { cache with entries := cache.entries.erase id }

def removeUserProjection (cache : Cache) (user : UserId) : Cache :=
  { cache with userProjections := cache.userProjections.evict user }

def removeObjectProjection (cache : Cache) (object : ObjectRef) : Cache :=
  { cache with objectProjections := cache.objectProjections.evict object }

def putGroupIdOfName (cache : Cache) (name : String) (group : GroupId) : Cache :=
  { cache with groupIdOfName := cache.groupIdOfName.insert name group }

def putGroupMembers (cache : Cache) (group : GroupId) (members : UserIds) : Cache :=
  { cache with groupMembers := cache.groupMembers.insert group members }

/-- Without the names that lead to the group. -/
def forgetNamesOf (cache : Cache) (group : GroupId) : Cache :=
  { cache with groupIdOfName := cache.groupIdOfName.filter fun _ id => id != group }

/-- With the record of a group that was changed: its name may have changed, so names that lead to
it and its list of members are forgotten. -/
def putGroup (cache : Cache) (group : Group) : Cache :=
  let cache := cache.forgetNamesOf group.id
  { cache with
    groupMembers := cache.groupMembers.erase group.id
    groups := cache.groups.insert group.id (some group) }

/-- Without anything known of the group. -/
def removeGroup (cache : Cache) (group : GroupId) : Cache :=
  let cache := cache.forgetNamesOf group
  { cache with
    groups := cache.groups.erase group
    groupMembers := cache.groupMembers.erase group }

end Cache

end BookingAccess
