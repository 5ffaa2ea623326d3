/-
**Names of classes, roles and permissions.**

All three are open vocabularies: a configuration may declare names of its own. They are kept apart
by type, and the names that the booking domain itself uses are given here once.
-/

import BookingAccess.KeyOrder

namespace BookingAccess

/-- A class of objects, such as `RESOURCE`. -/
structure ObjectClass where
  name : String
deriving DecidableEq, Inhabited

/-- What an identity is on an object, such as `OWNER`. -/
structure Role where
  name : String
deriving DecidableEq, Inhabited

/-- What a role allows, such as `READ`. -/
structure Permission where
  name : String
deriving DecidableEq, Inhabited

/-! ### Order -/

instance : Ord ObjectClass := ⟨compareOn ObjectClass.name⟩
instance : Std.TransOrd ObjectClass := inferInstanceAs (Std.TransCmp (compareOn ObjectClass.name))
instance : Std.LawfulEqOrd ObjectClass :=
  KeyOrder.lawfulEq_of_key ObjectClass.name fun ⟨_⟩ ⟨_⟩ equal => congrArg ObjectClass.mk equal

instance : Ord Role := ⟨compareOn Role.name⟩
instance : Std.TransOrd Role := inferInstanceAs (Std.TransCmp (compareOn Role.name))
instance : Std.LawfulEqOrd Role :=
  KeyOrder.lawfulEq_of_key Role.name fun ⟨_⟩ ⟨_⟩ equal => congrArg Role.mk equal

instance : Ord Permission := ⟨compareOn Permission.name⟩
instance : Std.TransOrd Permission := inferInstanceAs (Std.TransCmp (compareOn Permission.name))
instance : Std.LawfulEqOrd Permission :=
  KeyOrder.lawfulEq_of_key Permission.name fun ⟨_⟩ ⟨_⟩ equal => congrArg Permission.mk equal

/-! ### Names of the booking domain -/

namespace ObjectClass

def resource : ObjectClass := ⟨"RESOURCE"⟩
def reservationRequest : ObjectClass := ⟨"RESERVATION_REQUEST"⟩
def reservation : ObjectClass := ⟨"RESERVATION"⟩
def executable : ObjectClass := ⟨"EXECUTABLE"⟩
def tag : ObjectClass := ⟨"TAG"⟩
def domain : ObjectClass := ⟨"DOMAIN"⟩
def foreignResources : ObjectClass := ⟨"FOREIGN_RESOURCES"⟩

end ObjectClass

namespace Role

def owner : Role := ⟨"OWNER"⟩
def reader : Role := ⟨"READER"⟩
def reservation : Role := ⟨"RESERVATION"⟩
def reservationRequestUser : Role := ⟨"RESERVATION_REQUEST_USER"⟩

end Role

namespace Permission

def read : Permission := ⟨"READ"⟩
def write : Permission := ⟨"WRITE"⟩
def reserveResource : Permission := ⟨"RESERVE_RESOURCE"⟩
def controlResource : Permission := ⟨"CONTROL_RESOURCE"⟩
def provideReservationRequest : Permission := ⟨"PROVIDE_RESERVATION_REQUEST"⟩

end Permission

end BookingAccess
