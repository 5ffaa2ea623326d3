/-
**Users and callers.**

A caller shows an access token; a user may also be asked for by number or by principal name. Root
is known without asking the directory. That a user does not exist is remembered as well.

* `Service.userInformation`, `Service.userId`: the user behind a token;
* `Service.userInformationById`, `Service.userInformationByPrincipalName`: a user;
* `Service.assuranceOf`: how well the caller's identity is assured.
-/

import BookingAccess.Service.Collaborators
import BookingAccess.Service.Remembering

namespace BookingAccess.Service

def userInformationById (user : UserId) : Action User := do
  if user == rootUserId then return .root
  let found ← rememberedUser user do
    match ← (DirectoryClient.userById user).outcome with
    | .ok found => return some found
    | .error (.userNotFound _) => return none
    | .error fault => throw (.ofDirectory fault)
  match found with
  | some found => return found
  | none => throw (.userNotFound user)

/-- The user behind a token. The first call keeps what the directory says about the token and the
user; later ones go by the number of the user. -/
def userInformation (token : AccessToken) : Action User := do
  match (← get).cache.userIdOfToken[token]? with
  | some user => userInformationById user
  | none =>
    let user ← .ofDirectory (DirectoryClient.userOfToken token)
    modifyCache fun cache =>
      cache.putUserIdOfToken token user.id
        |>.putAssurance token (user.assurance.getD {})
        |>.putUser user
    return user

def userId (token : AccessToken) : Action UserId := do
  match (← get).cache.userIdOfToken[token]? with
  | some user => return user
  | none => return (← userInformation token).id

def hasUser (user : UserId) : Action Bool := do
  tryCatch (do
    let _ ← userInformationById user
    return true)
    fun
    | .userNotFound _ => return false
    | fault => throw fault

def userInformationByPrincipalName (name : String) : Action User := do
  let found ← rememberedUserIdOfPrincipal name do
    match ← (DirectoryClient.userIdOfPrincipal name).outcome with
    | .ok user => return some user
    | .error (.userNotFound _) => return none
    | .error fault => throw (.ofDirectory fault)
  match found with
  | some user => userInformationById user
  | none => throw (.userNotFound name)

/-- How well the caller's identity is assured: not at all where the directory says nothing. -/
def assuranceOf (token : AccessToken) : Action Assurance := do
  let found ← rememberedAssurance token do
    match ← (DirectoryClient.userOfToken token).outcome with
    | .ok user => return some (user.assurance.getD {})
    | .error (.userNotFound _) => return none
    | .error .invalidToken => return none
    | .error fault => throw (.ofDirectory fault)
  return found.getD {}

end BookingAccess.Service
