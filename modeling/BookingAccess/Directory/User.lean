/-
**Users.**

What the directory knows about a user, and how much of it an expression may ask about.
-/

import BookingAccess.Identity
import BookingAccess.Expression.Evaluation

namespace BookingAccess

/-- How well the identity of a user is assured. -/
structure Assurance where
  provider : Option String := none
  /-- The level of assurance; zero where nothing is known. -/
  level : Int := 0
deriving DecidableEq, Inhabited

structure User where
  id : UserId
  firstName : Option String := none
  lastName : Option String := none
  email : Option String := none
  organization : Option String := none
  principalNames : List String := []
  assurance : Option Assurance := none
deriving DecidableEq, Inhabited

namespace User

/-- The built-in user, whom no directory has to know. -/
def root : User := { id := rootUserId, lastName := some "root" }

def isRoot (user : User) : Bool := user.id == rootUserId

/-- First and last name, with a space between them where both are known. -/
def fullName (user : User) : String :=
  match user.firstName, user.lastName with
  | some first, some last => first ++ " " ++ last
  | some first, none => first
  | none, some last => last
  | none, none => ""

/-- What an expression may ask about the user, who came with this assurance. -/
def attributes (user : User) (assurance : Assurance) : Attributes where
  id := some user.id
  firstName := user.firstName
  lastName := user.lastName
  email := user.email
  organization := user.organization
  provider := assurance.provider
  loa := some assurance.level

end User

end BookingAccess
