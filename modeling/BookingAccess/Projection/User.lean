/-
**What one user holds.**

A user projection gathers every entry that applies to one user, directly or through a group. It
keeps the entries by number, the holding on each object, and five listings of objects that are
asked for often. All three are brought up to date with each entry that comes or goes.

* `UserProjection.add`, `UserProjection.remove`: one entry comes or goes, and whether that was a
  change;
* `UserProjection.objectsWithRole`, `UserProjection.objectsWithPermission`: from a listing where
  there is one, and by looking at every holding otherwise.
-/

import BookingAccess.ObjectType.Registry
import BookingAccess.Projection.ClassIndex

namespace BookingAccess

/-- The entries of a user on one object, with the roles and permissions that they give. -/
structure Holding where
  entries : Std.ExtTreeMap EntryId Entry
  roles : Std.ExtTreeSet Role
  permissions : Std.ExtTreeSet Permission
deriving DecidableEq

namespace Holding

def empty : Holding := ⟨∅, ∅, ∅⟩

instance : Inhabited Holding := ⟨empty⟩

/-- The holding that these entries give on an object of the class. -/
def ofEntries (registry : Registry) (objectClass : ObjectClass)
    (entries : Std.ExtTreeMap EntryId Entry) : Holding :=
  let roles := Std.ExtTreeSet.ofList (entries.values.map (·.role))
  let permissions := Std.ExtTreeSet.ofList
    (roles.toList.flatMap fun role => (registry.rolePermissions objectClass role).toList)
  ⟨entries, roles, permissions⟩

end Holding

/-- A listing of objects that a user projection keeps. -/
inductive Listing
  | owned
  | readable
  | writable
  | reservable
  | controllable
deriving DecidableEq

namespace Listing

/-- Does an object with this holding belong in the listing? -/
def admits (listing : Listing) (holding : Holding) : Bool :=
  match listing with
  | .owned => holding.roles.contains .owner
  | .readable => holding.permissions.contains .read
  | .writable => holding.permissions.contains .write
  | .reservable => holding.permissions.contains .reserveResource
  | .controllable => holding.permissions.contains .controlResource

def all : List Listing := [.owned, .readable, .writable, .reservable, .controllable]

/-- The listing kept for a role, if there is one. -/
def ofRole? (role : Role) : Option Listing :=
  if role == .owner then some .owned else none

/-- The listing kept for a permission, if there is one. -/
def ofPermission? (permission : Permission) : Option Listing :=
  if permission == .read then some .readable
  else if permission == .write then some .writable
  else if permission == .reserveResource then some .reservable
  else if permission == .controlResource then some .controllable
  else none

end Listing

/-- One index for each listing. -/
structure Listings where
  owned : ClassIndex := .empty
  readable : ClassIndex := .empty
  writable : ClassIndex := .empty
  reservable : ClassIndex := .empty
  controllable : ClassIndex := .empty
deriving DecidableEq, Inhabited

namespace Listings

def get (listings : Listings) : Listing → ClassIndex
  | .owned => listings.owned
  | .readable => listings.readable
  | .writable => listings.writable
  | .reservable => listings.reservable
  | .controllable => listings.controllable

/-- The listings after the holding on an object has become this one. -/
def file (listings : Listings) (object : ObjectRef) (holding : Holding) : Listings where
  owned := listings.owned.set object (Listing.owned.admits holding)
  readable := listings.readable.set object (Listing.readable.admits holding)
  writable := listings.writable.set object (Listing.writable.admits holding)
  reservable := listings.reservable.set object (Listing.reservable.admits holding)
  controllable := listings.controllable.set object (Listing.controllable.admits holding)

/-- Filing an object changes every listing in the same way. -/
theorem get_file (listings : Listings) (object : ObjectRef) (holding : Holding)
    (listing : Listing) :
    (listings.file object holding).get listing =
      (listings.get listing).set object (listing.admits holding) := by
  cases listing <;> rfl

end Listings

structure UserProjection where
  entries : Std.ExtTreeMap EntryId Entry
  holdings : Std.ExtTreeMap ObjectRef Holding
  listings : Listings
deriving DecidableEq

namespace UserProjection

def empty : UserProjection := ⟨∅, ∅, {}⟩

instance : Inhabited UserProjection := ⟨empty⟩

/-- The holding on an object: empty where the user has no entries. -/
def holding (projection : UserProjection) (object : ObjectRef) : Holding :=
  projection.holdings[object]?.getD .empty

/-- The listings once the object is filed under what is now held on it. -/
def refile (projection : UserProjection) (object : ObjectRef) : UserProjection :=
  { projection with listings := projection.listings.file object (projection.holding object) }

/-! ### Entries that come and go -/

/-- With one more entry; an entry whose number is present already changes nothing. -/
def add (registry : Registry) (projection : UserProjection) (entry : Entry) :
    Bool × UserProjection :=
  if projection.entries.contains entry.id then (false, projection)
  else
    let held := (projection.holding entry.object).entries.insert entry.id entry
    let holding := Holding.ofEntries registry entry.object.objectClass held
    (true, refile
      { projection with
        entries := projection.entries.insert entry.id entry
        holdings := projection.holdings.insert entry.object holding } entry.object)

/-- Without an entry; an entry whose number is not present changes nothing. The object that loses
the entry is the one that the argument names. -/
def remove (registry : Registry) (projection : UserProjection) (entry : Entry) :
    Bool × UserProjection :=
  if projection.entries.contains entry.id then
    let holdings := match projection.holdings[entry.object]? with
      | none => projection.holdings
      | some holding =>
        let held := holding.entries.erase entry.id
        if held.isEmpty then projection.holdings.erase entry.object
        else projection.holdings.insert entry.object
          (.ofEntries registry entry.object.objectClass held)
    (true, refile
      { projection with
        entries := projection.entries.erase entry.id
        holdings := holdings } entry.object)
  else (false, projection)

/-- The projection of a list of entries. -/
def ofEntries (registry : Registry) (entries : List Entry) : UserProjection :=
  entries.foldl (fun projection entry => (projection.add registry entry).2) empty

/-! ### Questions -/

def holdsEntry (projection : UserProjection) (id : EntryId) : Bool :=
  projection.entries.contains id

def entryCount (projection : UserProjection) : Nat := projection.entries.size

/-- The entries on an object, in order of their numbers. -/
def entriesOn (projection : UserProjection) (object : ObjectRef) : List Entry :=
  (projection.holding object).entries.values

def roles (projection : UserProjection) (object : ObjectRef) : Std.ExtTreeSet Role :=
  (projection.holding object).roles

def permissions (projection : UserProjection) (object : ObjectRef) : Std.ExtTreeSet Permission :=
  (projection.holding object).permissions

def hasRole (projection : UserProjection) (object : ObjectRef) (role : Role) : Bool :=
  (projection.roles object).contains role

def hasPermission (projection : UserProjection) (object : ObjectRef) (permission : Permission) :
    Bool :=
  (projection.permissions object).contains permission

/-- The objects of a class whose holding passes the test. -/
def scan (projection : UserProjection) (objectClass : ObjectClass) (test : Holding → Bool) :
    Std.ExtTreeSet Int :=
  .ofList (projection.holdings.toList.filterMap fun (object, holding) =>
    if object.objectClass == objectClass && test holding then some object.id else none)

def objectsWithRole (projection : UserProjection) (objectClass : ObjectClass) (role : Role) :
    Std.ExtTreeSet Int :=
  match Listing.ofRole? role with
  | some listing => (projection.listings.get listing).ids objectClass
  | none => projection.scan objectClass fun holding => holding.roles.contains role

def objectsWithPermission (projection : UserProjection) (objectClass : ObjectClass)
    (permission : Permission) : Std.ExtTreeSet Int :=
  match Listing.ofPermission? permission with
  | some listing => (projection.listings.get listing).ids objectClass
  | none => projection.scan objectClass fun holding => holding.permissions.contains permission

end UserProjection

end BookingAccess
