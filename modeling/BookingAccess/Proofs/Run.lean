/-
**Runs of the service.**

A run is a list of events, one after another: calls of the service and of its managers, each alone,
and what happens outside, as collaborators fail or come back and the graph of objects changes. What
else may be expected of an event is stated as a rule about the state before it.

* `Call`, `Event`: what may happen; `Event.next`: the state that it leaves;
* `Run`: the states that events lead to, with the events and the states before them;
* `Occurrence.EntriesAgree`, `Occurrence.CommitsAnswered` and so on: rules.
-/

import BookingAccess.Proofs.Service.Asking
import BookingAccess.Proofs.Store
import BookingAccess.Service.ObjectAccess
import BookingAccess.Transaction.Granting
import BookingAccess.Transaction.Revoking

namespace BookingAccess

/-! ### Calls -/

/-- A question to the service. Switching administration mode changes no grant and counts as one. -/
inductive Question
  | userId (token : AccessToken)
  | userInformation (token : AccessToken)
  | userInformationById (user : UserId)
  | userInformationByPrincipalName (name : String)
  | hasUser (user : UserId)
  | assuranceOf (token : AccessToken)
  | group (group : GroupId)
  | groupIdByName (name : String)
  | groupMembers (group : GroupId)
  | usersOf (identity : Identity)
  | listGroups (ids : Option (List GroupId)) (kinds : Option (List GroupKind))
  | modeOf (token : AccessToken)
  | isAdministrator (token : AccessToken)
  | isOperator (token : AccessToken)
  | updateAdministrationMode (token : AccessToken) (enabled : Bool)
  | hasSystemPermission (token : AccessToken) (permission : SystemPermission)
  | checkPolicies
  | userProjection (user : UserId)
  | objectProjection (object : ObjectRef)
  | hasUserRole (user : UserId) (object : ObjectRef) (role : Role)
  | hasUserPermission (user : UserId) (object : ObjectRef) (permission : Permission)
  | hasRole (token : AccessToken) (object : ObjectRef) (role : Role)
  | hasPermission (token : AccessToken) (object : ObjectRef) (permission : Permission)
  | objectPermissions (token : AccessToken) (object : ObjectRef)
  | objectsWithRole (token : AccessToken) (objectClass : ObjectClass) (role : Role)
  | objectsWithPermission (token : AccessToken) (objectClass : ObjectClass)
      (permission : Permission)
  | userIdsWithRole (object : ObjectRef) (role : Role)
  | usersWithRole (object : ObjectRef) (role : Role)

/-- A change of a group. -/
inductive GroupChange
  | create (group : Group)
  | modify (group : Group)
  | delete (group : GroupId)
  | addUser (group : GroupId) (user : UserId)
  | removeUser (group : GroupId) (user : UserId)

/-- A call of a manager. -/
inductive Task
  | isActive
  | begin
  | commit
  | rollback
  | getEntry (identity : Identity) (object : ObjectRef) (role : Role)
  | entry (id : EntryId)
  | entries (object : ObjectRef)
  | createEntry (identity : Identity) (object : ObjectRef) (role : Role)
  | propagateToChild (parent : Entry) (child : ObjectRef) (role : Role) (kind : DependencyKind)
  | createEntriesForChild (parent child : ObjectRef)
  | deleteEntry (entry : Entry) (detach : Bool)
  | deleteEntriesForObject (object : ObjectRef)
  | deleteEntriesForChild (parent child : ObjectRef)

inductive Call
  | ask (question : Question)
  | regroup (change : GroupChange)
  | clearCache
  | manage (manager : ManagerId) (task : Task)

/-- The call without its answer. -/
def Action.silent {α : Type} (action : Action α) : Action Unit := (fun _ => ()) <$> action

open Service

def Question.action : Question → Action Unit
  | .userId token => (Service.userId token).silent
  | .userInformation token => (Service.userInformation token).silent
  | .userInformationById user => (Service.userInformationById user).silent
  | .userInformationByPrincipalName name => (Service.userInformationByPrincipalName name).silent
  | .hasUser user => (Service.hasUser user).silent
  | .assuranceOf token => (Service.assuranceOf token).silent
  | .group id => (Service.group id).silent
  | .groupIdByName name => (Service.groupIdByName name).silent
  | .groupMembers id => (Service.groupMembers id).silent
  | .usersOf identity => (Service.usersOf identity).silent
  | .listGroups ids kinds => (Service.listGroups ids kinds).silent
  | .modeOf token => (Service.modeOf token).silent
  | .isAdministrator token => (Service.isAdministrator token).silent
  | .isOperator token => (Service.isOperator token).silent
  | .updateAdministrationMode token enabled =>
    (Service.updateAdministrationMode token enabled).silent
  | .hasSystemPermission token permission => (Service.hasSystemPermission token permission).silent
  | .checkPolicies => Service.checkPolicies.silent
  | .userProjection user => (Service.userProjection user).silent
  | .objectProjection object => (Service.objectProjection object).silent
  | .hasUserRole user object role => (Service.hasUserRole user object role).silent
  | .hasUserPermission user object permission =>
    (Service.hasUserPermission user object permission).silent
  | .hasRole token object role => (Service.hasRole token object role).silent
  | .hasPermission token object permission => (Service.hasPermission token object permission).silent
  | .objectPermissions token object => (Service.objectPermissions token object).silent
  | .objectsWithRole token objectClass role =>
    (Service.objectsWithRole token objectClass role).silent
  | .objectsWithPermission token objectClass permission =>
    (Service.objectsWithPermission token objectClass permission).silent
  | .userIdsWithRole object role => (Service.userIdsWithRole object role).silent
  | .usersWithRole object role => (Service.usersWithRole object role).silent

def GroupChange.action : GroupChange → Action Unit
  | .create group => (createGroup group).silent
  | .modify group => modifyGroup group
  | .delete group => deleteGroup group
  | .addUser group user => addGroupUser group user
  | .removeUser group user => removeGroupUser group user

def Task.action (manager : ManagerId) : Task → Action Unit
  | .isActive => (Manager.isActive manager).silent
  | .begin => Manager.begin manager
  | .commit => Manager.commit manager
  | .rollback => Manager.rollback manager
  | .getEntry identity object role => (Manager.getEntry manager identity object role).silent
  | .entry id => (Manager.entry manager id).silent
  | .entries object => (Manager.entries manager object).silent
  | .createEntry identity object role => (Manager.createEntry manager identity object role).silent
  | .propagateToChild parent child role kind =>
    (Manager.propagateToChild manager parent child role kind).silent
  | .createEntriesForChild parent child =>
    (Manager.createEntriesForChild manager parent child).silent
  | .deleteEntry revoked detach => (Manager.deleteEntry manager revoked detach).silent
  | .deleteEntriesForObject object => (Manager.deleteEntriesForObject manager object).silent
  | .deleteEntriesForChild parent child =>
    (Manager.deleteEntriesForChild manager parent child).silent

/-- The entries that the caller hands over. -/
def Task.arguments : Task → List Entry
  | .propagateToChild parent _ _ _ => [parent]
  | .deleteEntry revoked _ => [revoked]
  | _ => []

def Call.action : Call → Action Unit
  | .ask question => question.action
  | .regroup change => change.action
  | .clearCache => modifyCache Cache.clear
  | .manage manager task => task.action manager

/-! ### Events -/

inductive Event
  | call (call : Call)
  /-- From now on these calls of collaborators fail. -/
  | outages (outages : Outages)
  /-- The booking system has other objects now. -/
  | graph (graph : ObjectGraph)

/-- The state after an event, whatever the outcome of a call. -/
def Event.next (service : Service) : Event → Service
  | .call made => (made.action.run.run service).2
  | .outages failing => { service with outages := failing }
  | .graph objects => { service with graph := objects }

/-- An event with the state before it. -/
structure Occurrence where
  before : Service
  event : Event

def Occurrence.after (occurrence : Occurrence) : Service :=
  occurrence.event.next occurrence.before

/-- **The runs that keep to a rule**: what occurred, last first, and the state that it led to. -/
inductive Run (rule : Occurrence → Prop) (start : Service) : List Occurrence → Service → Prop
  | start : Run rule start [] start
  | next {past : List Occurrence} {service : Service} (event : Event) :
      Run rule start past service → rule ⟨service, event⟩ →
      Run rule start (⟨service, event⟩ :: past) (event.next service)

/-- A run keeps to any rule that follows. -/
theorem Run.mono {rule weaker : Occurrence → Prop} {start service : Service}
    {past : List Occurrence} (run : Run rule start past service)
    (follows : ∀ occurrence, rule occurrence → weaker occurrence) :
    Run weaker start past service := by
  induction run with
  | start => exact .start
  | next event _ ruled ih => exact .next event ih (follows _ ruled)

/-- A run keeps to any rule that whatever has occurred keeps to. -/
theorem Run.ofPast {rule other : Occurrence → Prop} {start service : Service}
    {past : List Occurrence} (run : Run rule start past service)
    (ruled : ∀ occurrence ∈ past, other occurrence) : Run other start past service := by
  induction run with
  | start => exact .start
  | next event _ _ ih =>
    exact .next event (ih fun occurrence member => ruled occurrence (.tail _ member))
      (ruled _ (.head _))

theorem Run.trans {rule : Occurrence → Prop} {start middle service : Service}
    {earlier later : List Occurrence} (first : Run rule start earlier middle)
    (second : Run rule middle later service) : Run rule start (later ++ earlier) service := by
  induction second with
  | start => exact first
  | next event _ ruled ih => exact .next event ih ruled

/-! ### Rules -/

/-- No transaction is open. -/
def Service.Idle (service : Service) : Prop :=
  ∀ manager : ManagerId, service.transactions[manager]? = none

/-- A state to start from: nothing is cached and no transaction is open. -/
structure Service.Fresh (service : Service) : Prop where
  cache : service.cache = .empty
  idle : service.Idle
  numbered : service.store.Numbered

namespace Occurrence

/-- Every entry that is handed over agrees with the store. An entry that the store holds does, and
so does one that it once held, since numbers are not given out again. -/
def EntriesAgree (occurrence : Occurrence) : Prop :=
  ∀ manager task, occurrence.event = .call (.manage manager task) →
    ∀ entry ∈ task.arguments, occurrence.before.store.Agrees entry

/-- No collaborator fails inside a commit. A commit hands on every fault of this kind. -/
def CommitsAnswered (occurrence : Occurrence) : Prop :=
  ∀ manager fault, occurrence.event = .call (.manage manager .commit) →
    ((Manager.commit manager).run.run occurrence.before).1 = .error fault →
      fault.isOutage = false

def NoRollback (occurrence : Occurrence) : Prop :=
  ∀ manager, occurrence.event ≠ .call (.manage manager .rollback)

def NoGroupChange (occurrence : Occurrence) : Prop :=
  ∀ change, occurrence.event ≠ .call (.regroup change)

def NoClearing (occurrence : Occurrence) : Prop :=
  occurrence.event ≠ .call .clearCache

/-- A manager deletes no entry that another manager created in a transaction still open. -/
def SparesOpenGrants (occurrence : Occurrence) : Prop :=
  ∀ manager task, occurrence.event = .call (.manage manager task) →
    ∀ (other : ManagerId) (sets : WorkingSets), other ≠ manager →
      occurrence.before.transactions[other]? = some sets → ∀ entry ∈ sets.added.values,
        occurrence.before.store.Holds entry → occurrence.after.store.Holds entry

/-- No other manager is called. -/
def ManagedBy (manager : ManagerId) (occurrence : Occurrence) : Prop :=
  ∀ other task, occurrence.event = .call (.manage other task) → other = manager

/-- Whatever is not done by this manager leaves the entries of the store alone. -/
def OthersSpareStore (manager : ManagerId) (occurrence : Occurrence) : Prop :=
  (∀ task, occurrence.event ≠ .call (.manage manager task)) →
    occurrence.after.store = occurrence.before.store

end Occurrence

end BookingAccess
