/-
**Who holds what on one object.**

An object projection keeps the entries on one object, each with the users that its identity stood
for when it came, and for each role the users who hold it.

* `ObjectProjection.add`, `ObjectProjection.remove`: one entry comes or goes, and whether that was
  a change;
* `ObjectProjection.usersWithRole`: the users who hold a role.
-/

import BookingAccess.Entry
import BookingAccess.UserIds

namespace BookingAccess

/-- An entry with the users that it stands for. -/
structure ResolvedEntry where
  entry : Entry
  users : UserIds
deriving DecidableEq

structure ObjectProjection where
  entries : Std.ExtTreeMap EntryId ResolvedEntry
  members : Std.ExtTreeMap Role UserIds
deriving DecidableEq

namespace ObjectProjection

def empty : ObjectProjection := ⟨∅, ∅⟩

instance : Inhabited ObjectProjection := ⟨empty⟩

def usersWithRole (projection : ObjectProjection) (role : Role) : UserIds :=
  projection.members[role]?.getD .empty

/-- With one more entry; an entry whose number is present already changes nothing. -/
def add (projection : ObjectProjection) (entry : Entry) (users : UserIds) :
    Bool × ObjectProjection :=
  if projection.entries.contains entry.id then (false, projection)
  else
    (true,
      { entries := projection.entries.insert entry.id ⟨entry, users⟩
        members := projection.members.insert entry.role
          ((projection.usersWithRole entry.role).union users) })

/-- The users of all these entries together. -/
def unionOf (holders : List ResolvedEntry) : UserIds :=
  holders.foldl (fun users holder => users.union holder.users) .empty

/-- Without an entry; an entry whose number is not present changes nothing. The role that loses
members is the one under which the entry came. -/
def remove (projection : ObjectProjection) (entry : Entry) : Bool × ObjectProjection :=
  match projection.entries[entry.id]? with
  | none => (false, projection)
  | some removed =>
    let rest := projection.entries.erase entry.id
    let holders := rest.values.filter (·.entry.role == removed.entry.role)
    (true,
      { entries := rest
        members :=
          if holders.isEmpty then projection.members.erase removed.entry.role
          else projection.members.insert removed.entry.role (unionOf holders) })

/-- The entries in order of their numbers. -/
def entryList (projection : ObjectProjection) : List Entry :=
  projection.entries.values.map (·.entry)

def entryCount (projection : ObjectProjection) : Nat := projection.entries.size

end ObjectProjection

end BookingAccess
