/-
**Sets of users.**

A set of users is either everyone or a finite set. Everyone absorbs: adding users to it, taking
users from it and uniting it with another set leave it as it is.

* `contains_union`: a user is in a union exactly when the user is in one of the two sets;
* `ext`: two finite sets with the same members are the same set.
-/

import BookingAccess.Identity
import Std.Data.ExtTreeSet

namespace BookingAccess

/-- A set of users that may be all of them. -/
inductive UserIds
  | everyone
  | only (ids : Std.ExtTreeSet UserId)
deriving DecidableEq

namespace UserIds

def empty : UserIds := .only ∅

instance : Inhabited UserIds := ⟨empty⟩

def single (user : UserId) : UserIds := .only {user}

def ofList (users : List UserId) : UserIds := .only (.ofList users)

def isEveryone : UserIds → Bool
  | .everyone => true
  | .only _ => false

def isEmpty : UserIds → Bool
  | .everyone => false
  | .only ids => ids.isEmpty

def contains : UserIds → UserId → Bool
  | .everyone, _ => true
  | .only ids, user => ids.contains user

/-- The members in order, where they can be listed: everyone has no list. -/
def toList : UserIds → List UserId
  | .everyone => []
  | .only ids => ids.toList

def insert : UserIds → UserId → UserIds
  | .everyone, _ => .everyone
  | .only ids, user => .only (ids.insert user)

def erase : UserIds → UserId → UserIds
  | .everyone, _ => .everyone
  | .only ids, user => .only (ids.erase user)

def union : UserIds → UserIds → UserIds
  | .everyone, _ => .everyone
  | .only _, .everyone => .everyone
  | .only ids, .only more => .only (ids ∪ more)

/-! ### Members -/

@[simp] theorem contains_everyone (user : UserId) : everyone.contains user = true := rfl

@[simp] theorem contains_empty (user : UserId) : empty.contains user = false := by
  simp [empty, contains]

@[simp] theorem contains_single (user other : UserId) :
    (single user).contains other = (user == other) := by
  have exactly : (single user).contains other = true ↔ (user == other) = true := by
    simp [single, contains, Std.ExtTreeSet.contains_insert]
  exact Bool.eq_iff_iff.mpr exactly

@[simp] theorem contains_union (first second : UserIds) (user : UserId) :
    (first.union second).contains user = (first.contains user || second.contains user) := by
  cases first <;> cases second <;> simp [union, contains]

/-- Finite sets with the same members are equal. -/
theorem ext {first second : Std.ExtTreeSet UserId}
    (same : ∀ user, (only first).contains user = (only second).contains user) :
    only first = only second := by
  refine congrArg only (Std.ExtTreeSet.ext_mem fun user => ?_)
  have := same user
  simp only [contains] at this
  rw [← Std.ExtTreeSet.contains_iff_mem, ← Std.ExtTreeSet.contains_iff_mem, this]

end UserIds

end BookingAccess
