/-
**System-wide access.**

The three policies say who may administer, operate and reserve. A caller who may administer or
operate can switch administration mode on and is then treated accordingly.

* `Service.evaluate`: a policy for a caller;
* `Service.updateAdministrationMode`, `Service.hasSystemPermission`;
* `Service.checkPolicies`: the three policies for root.
-/

import BookingAccess.Service.Groups
import BookingAccess.Service.Users

namespace BookingAccess.Service

/-! ### Policies -/

/-- The members of a group that a policy mentions; a group that does not exist has none. -/
def policyGroup (name : String) : Action UserIds := do
  let found ← tryCatch (some <$> groupIdByName name) fun
    | .groupNotFound _ => return none
    | fault => throw fault
  match found with
  | some group => groupMembers group
  | none =>
    record (.unknownGroupInExpression name)
    return .empty

/-- The members of the groups with these names. -/
def policyGroups : List String → Action (List (String × UserIds))
  | [] => return []
  | name :: names => do
    let members ← policyGroup name
    return (name, members) :: (← policyGroups names)

/-- The value of a policy for a user with this assurance. -/
def evaluateFor (policy : Policy) (user : User) (assurance : Assurance) : Action Bool := do
  let groups ← policyGroups policy.groupNames.toList
  match policy.holds (user.attributes assurance) fun name => (groups.lookup name).getD .empty with
  | .ok result => return result
  | .error fault => throw (.expression fault)

/-- The value of a policy for a caller. -/
def evaluate (policy : Policy) (token : AccessToken) : Action Bool := do
  if policy.isConstantFalse then return false
  let user ← userInformation token
  let assurance ← assuranceOf token
  evaluateFor policy user assurance

/-- The values of the three policies. -/
structure PolicyCheck where
  administrator : Bool
  operator : Bool
  reservation : Bool
deriving DecidableEq

/-- The values of the three policies for root. -/
def checkPolicies : Action PolicyCheck := do
  let service ← get
  return {
    administrator := ← evaluateFor service.administrator .root {}
    operator := ← evaluateFor service.operator .root {}
    reservation := ← evaluateFor service.reservation .root {} }

/-! ### Administration mode -/

def modeOf (token : AccessToken) : Action (Option AdministrationMode) := do
  return (← get).modes[token]?

def isAdministrator (token : AccessToken) : Action Bool := do
  return (← modeOf token) == some .administrator

/-- Administrators are operators too. -/
def isOperator (token : AccessToken) : Action Bool := do
  return (← modeOf token).isSome

/-- The strongest mode that the policies grant a caller. -/
def grantedMode (token : AccessToken) : Action (Option AdministrationMode) := do
  let service ← get
  if ← evaluate service.administrator token then return some .administrator
  if ← evaluate service.operator token then return some .operator
  return none

def setMode (token : AccessToken) (mode : Option AdministrationMode) : Action Unit :=
  modify fun service =>
    { service with
      modes := match mode with
        | some mode => service.modes.insert token mode
        | none => service.modes.erase token }

/-- Switch administration mode on, as far as the policies grant it, or off. -/
def updateAdministrationMode (token : AccessToken) (enabled : Bool) :
    Action (Option AdministrationMode) := do
  let mode ← if enabled then grantedMode token else pure none
  setMode token mode
  record (.administrationMode (← userId token) mode)
  return mode

def hasSystemPermission (token : AccessToken) (permission : SystemPermission) : Action Bool := do
  if ← isAdministrator token then return true
  if (← userId token) == rootUserId then return true
  let service ← get
  match permission with
  | .administration =>
    if ← evaluate service.administrator token then return true
    evaluate service.operator token
  | .operator => isOperator token
  | .reservation => evaluate service.reservation token

end BookingAccess.Service
