/-
**Identities.**

A grant is made to a user or to a group. Two identities are built in: the group *everyone*, which
stands for all users, and the user *root*, who needs no grants.
-/

import BookingAccess.KeyOrder

namespace BookingAccess

abbrev UserId := String

abbrev GroupId := String

/-- Who a grant is made to. -/
inductive Identity
  | user (id : UserId)
  | group (id : GroupId)
deriving DecidableEq, Inhabited

/-- The built-in group of all users. -/
def everyoneGroupId : GroupId := "0"

def everyoneGroupName : String := "everyone"

/-- The built-in user who may do everything. -/
def rootUserId : UserId := "0"

namespace Identity

def everyone : Identity := .group everyoneGroupId

def isEveryone : Identity → Bool
  | .group id => id == everyoneGroupId
  | .user _ => false

def isRoot : Identity → Bool
  | .user id => id == rootUserId
  | .group _ => false

def principal : Identity → String
  | .user id => id
  | .group id => id

/-- Users come before groups. -/
def rank : Identity → Nat
  | .user _ => 0
  | .group _ => 1

def render : Identity → String
  | .user id => "user:" ++ id
  | .group id => "group:" ++ id

instance : Ord Identity := ⟨compareLex (compareOn rank) (compareOn principal)⟩
instance : Std.TransOrd Identity :=
  inferInstanceAs (Std.TransCmp (compareLex (compareOn rank) (compareOn principal)))
instance : Std.LawfulEqOrd Identity :=
  KeyOrder.lawfulEq_of_keys rank principal fun first second sameRank same => by
    cases first <;> cases second <;> simp_all [rank, principal]

end Identity

end BookingAccess
