/-
**References to objects.**

An object is known to the library by its class and its number only.
-/

import BookingAccess.ObjectType.Name

namespace BookingAccess

/-- An object of the booking system. -/
structure ObjectRef where
  objectClass : ObjectClass
  id : Int
deriving DecidableEq, Inhabited

namespace ObjectRef

def render (object : ObjectRef) : String := s!"{object.objectClass.name}:{object.id}"

instance : Ord ObjectRef := ⟨compareLex (compareOn objectClass) (compareOn id)⟩
instance : Std.TransOrd ObjectRef :=
  inferInstanceAs (Std.TransCmp (compareLex (compareOn objectClass) (compareOn id)))
instance : Std.LawfulEqOrd ObjectRef :=
  KeyOrder.lawfulEq_of_keys objectClass id fun ⟨_, _⟩ ⟨_, _⟩ sameClass sameId =>
    congr (congrArg ObjectRef.mk sameClass) sameId

end ObjectRef

end BookingAccess
