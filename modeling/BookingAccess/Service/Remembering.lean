/-
**Answers that are remembered.**

An answer is looked for in the cache first; on a miss it is loaded and kept. A load that fails is
not kept, so the next caller tries again.

* `Service.remembered` is the rule, and there is one action for each part of the cache that works
  by it.
-/

import BookingAccess.Service.Basic

namespace BookingAccess.Service

/-- The answer in the cache, or else the one that the load gives. -/
def remembered {α : Type} (look : Cache → Option α) (keep : Cache → α → Cache)
    (load : Action α) : Action α := do
  match look (← get).cache with
  | some answer => return answer
  | none =>
    let answer ← load
    modifyCache fun cache => keep cache answer
    return answer

def rememberedUserIdOfPrincipal (name : String) (load : Action (Option UserId)) :
    Action (Option UserId) :=
  remembered (fun cache => cache.userIdOfPrincipal[name]?)
    (fun cache answer =>
      { cache with userIdOfPrincipal := cache.userIdOfPrincipal.insert name answer }) load

def rememberedUser (user : UserId) (load : Action (Option User)) : Action (Option User) :=
  remembered (fun cache => cache.users[user]?)
    (fun cache answer => { cache with users := cache.users.insert user answer }) load

def rememberedAssurance (token : AccessToken) (load : Action (Option Assurance)) :
    Action (Option Assurance) :=
  remembered (fun cache => cache.assuranceOfToken[token]?)
    (fun cache answer =>
      { cache with assuranceOfToken := cache.assuranceOfToken.insert token answer }) load

def rememberedGroup (group : GroupId) (load : Action (Option Group)) : Action (Option Group) :=
  remembered (fun cache => cache.groups[group]?)
    (fun cache answer => { cache with groups := cache.groups.insert group answer }) load

def rememberedGroupMembers (group : GroupId) (load : Action UserIds) : Action UserIds :=
  remembered (fun cache => cache.groupMembers[group]?)
    (fun cache answer => cache.putGroupMembers group answer) load

/-- The projection of a user on the shelf, or else the loaded one, which goes there. -/
def rememberedUserProjection (user : UserId) (load : Action UserProjection) :
    Action (Loaded UserProjection) := do
  match (← get).cache.userProjections.get? user with
  | some loaded => return loaded
  | none =>
    let projection ← load
    let (loaded, shelf) := (← get).cache.userProjections.put user projection
    modifyCache fun cache => { cache with userProjections := shelf }
    return loaded

/-- The projection of an object on the shelf, or else the loaded one, which goes there. -/
def rememberedObjectProjection (object : ObjectRef) (load : Action ObjectProjection) :
    Action (Loaded ObjectProjection) := do
  match (← get).cache.objectProjections.get? object with
  | some loaded => return loaded
  | none =>
    let projection ← load
    let (loaded, shelf) := (← get).cache.objectProjections.put object projection
    modifyCache fun cache => { cache with objectProjections := shelf }
    return loaded

end BookingAccess.Service
