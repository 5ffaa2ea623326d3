/-
**The state of the service.**

The service answers who may do what. Its state is the registry and the policies, which stay as
they are, the three collaborators (store, directory and graph of objects), the cache, the
administration modes of callers, the open transactions and the audit trail.

* `Service.init`: the state at the start;
* `Action`: a call of the service. A call that fails keeps what it did up to then.
-/

import BookingAccess.AccessError
import BookingAccess.Audit
import BookingAccess.Cache.Basic
import BookingAccess.Expression.Policy
import BookingAccess.ObjectGraph
import BookingAccess.Transaction.WorkingSets

namespace BookingAccess

/-! ### Calls of collaborators -/

inductive StoreCall
  | createEntry
  | deleteEntry
  | getEntry
  | findEntry
  | listEntriesByObject
  | listEntriesByIdentities
  | createDependency
  | findDependency
  | listDependenciesByParent
  | listDependenciesByChild
  | listDependenciesByChildObject
  | deleteDependency
deriving DecidableEq

inductive DirectoryCall
  | userDataByToken
  | userDataById
  | userIdByPrincipalName
  | group
  | groupIdByName
  | groupMemberIds
  | userGroupIds
  | listGroups
  | createGroup
  | modifyGroup
  | deleteGroup
  | addGroupUser
  | removeGroupUser
deriving DecidableEq

/-- Which calls of collaborators fail, and why. All calls are counted, and a call may fail or not
depending on its place in the count. -/
structure Outages where
  store : Nat → StoreCall → Option String := fun _ _ => none
  directory : Nat → DirectoryCall → Option String := fun _ _ => none
  graph : Nat → Option String := fun _ => none

/-- Every call is answered. -/
def Outages.none : Outages := {}

/-! ### State -/

/-- The number of one of the managers that change grants. -/
abbrev ManagerId := Nat

structure Service where
  registry : Registry
  administrator : Policy
  operator : Policy
  reservation : Policy
  store : Store
  directory : Directory
  /-- How many calls the directory has answered, be it with a fault. -/
  lookups : Nat
  graph : ObjectGraph
  outages : Outages
  /-- How many calls of collaborators have been made. -/
  calls : Nat
  cache : Cache
  modes : Std.ExtTreeMap AccessToken AdministrationMode
  /-- The open transactions, at most one for each manager. -/
  transactions : Std.ExtTreeMap ManagerId WorkingSets
  /-- The audit trail, last event first. -/
  trail : List AuditEvent

/-- A call of the service. -/
abbrev Action := ExceptT AccessError (StateM Service)

namespace Service

/-- The service at the start. Every policy has to compile. -/
def init (registry : Registry) (sources : PolicySources) (store : Store) (directory : Directory)
    (graph : ObjectGraph) : Except ExpressionError Service := do
  return {
    registry, store, directory, graph
    administrator := ← Policy.compile sources.administrator
    operator := ← Policy.compile sources.operator
    reservation := ← Policy.compile sources.reservation
    lookups := 0
    outages := .none
    calls := 0
    cache := .empty
    modes := ∅
    transactions := ∅
    trail := [] }

def modifyCache (change : Cache → Cache) : Action Unit :=
  modify fun service => { service with cache := change service.cache }

/-- Put an event on the audit trail. -/
def record (event : AuditEvent) : Action Unit :=
  modify fun service => { service with trail := event :: service.trail }

end Service

end BookingAccess
