/-
**Groups.**

A group has a number, a name and administrators; who its members are is kept by the directory.
-/

import BookingAccess.Identity
import Std.Data.ExtTreeSet

namespace BookingAccess

inductive GroupKind
  | user
  | system
deriving DecidableEq, Inhabited

structure Group where
  id : GroupId
  name : String
  description : Option String := none
  kind : GroupKind := .user
  administrators : Std.ExtTreeSet UserId := ∅
deriving DecidableEq

namespace Group

/-- The built-in group of all users. -/
def everyone : Group where
  id := everyoneGroupId
  name := everyoneGroupName
  description := some "All users"
  kind := .system

instance : Inhabited Group := ⟨everyone⟩

def isEveryone (group : Group) : Bool := group.id == everyoneGroupId

/-- Is this the name of the built-in group, in any mixture of capitals? No letter outside ASCII
has one of the letters of that name as its lower case, so lowering ASCII letters decides it. -/
def isEveryoneName (name : String) : Bool :=
  name.toList.map Char.toLower == everyoneGroupName.toList

end Group

end BookingAccess
