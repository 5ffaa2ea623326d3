/-
**Evaluating expressions.**

Conjunctions and disjunctions stop at the first operand that decides them; an operand that is
reached and is not boolean is an error. Equality is defined between any two values, order only
between two integers or two texts, and membership only in a set of users.

* `Expression.eval` is the value of a tree under the attributes of a user and the members of groups;
* `Value.compare` is the meaning of the comparisons.
-/

import BookingAccess.Expression.Basic

namespace BookingAccess

/-- What an expression may ask about a user. -/
structure Attributes where
  id : Option String := none
  firstName : Option String := none
  lastName : Option String := none
  email : Option String := none
  organization : Option String := none
  provider : Option String := none
  /-- The level of assurance. -/
  loa : Option Int := none
deriving DecidableEq, Inhabited

def Value.ofText? : Option String → Value
  | none => .null
  | some value => .text value

def Value.ofInteger? : Option Int → Value
  | none => .null
  | some value => .integer value

/-- The value of an attribute; a name that is no attribute has the value null. -/
def Attributes.lookup (attributes : Attributes) (name : String) : Value :=
  match name with
  | "id" => .ofText? attributes.id
  | "first_name" => .ofText? attributes.firstName
  | "last_name" => .ofText? attributes.lastName
  | "email" => .ofText? attributes.email
  | "organization" => .ofText? attributes.organization
  | "provider" => .ofText? attributes.provider
  | "loa" => .ofInteger? attributes.loa
  | _ => .null

namespace Value

/-- The order of two values, where they have one: numbers by size, texts by code point. -/
def order? : Value → Value → Option Ordering
  | .integer left, .integer right => some (Ord.compare left right)
  | .text left, .text right => some (Ord.compare left right)
  | _, _ => none

/-- Is the first value the id of a user in the second one? Null is no user. -/
def member? : Value → Value → Option Bool
  | .null, .users _ => some false
  | .text id, .users members => some (members.contains id)
  | .integer id, .users members => some (members.contains (toString id))
  | _, _ => none

/-- The outcome of a comparison, where the two values can be compared. -/
def compare? (left right : Value) : Comparison → Option Bool
  | .equal => some (left == right)
  | .different => some (left != right)
  | .less => (order? left right).map (· == .lt)
  | .lessOrEqual => (order? left right).map (· != .gt)
  | .greater => (order? left right).map (· == .gt)
  | .greaterOrEqual => (order? left right).map (· != .lt)
  | .member => member? left right

def compare (relation : Comparison) (left right : Value) : Except ExpressionError Bool :=
  match compare? left right relation with
  | some result => .ok result
  | none => .error (.typeMismatch (.comparison relation) left.type right.type)

/-- The operand of a connective has to be boolean. -/
def expectBoolean (operator : Operator) : Value → Except ExpressionError Bool
  | .boolean value => .ok value
  | other => .error (.typeMismatch operator other.type .boolean)

end Value

namespace Expression

mutual

def eval (attributes : Attributes) (groups : String → UserIds) :
    Expression → Except ExpressionError Value
  | .literal value => .ok value
  | .property name => .ok (attributes.lookup name)
  | .group name => .ok (.users (groups name))
  | .negation operand => do
    let value ← operand.eval attributes groups
    return .boolean !(← value.expectBoolean .negation)
  | .conjunction operands => do return .boolean (← evalAll attributes groups operands)
  | .disjunction operands => do return .boolean (← evalAny attributes groups operands)
  | .comparison relation left right => do
    let left ← left.eval attributes groups
    let right ← right.eval attributes groups
    return .boolean (← Value.compare relation left right)

/-- Are all operands true? Those behind the first false one are not looked at. -/
def evalAll (attributes : Attributes) (groups : String → UserIds) :
    List Expression → Except ExpressionError Bool
  | [] => .ok true
  | operand :: operands => do
    let value ← operand.eval attributes groups
    if ← value.expectBoolean .conjunction then evalAll attributes groups operands
    else return false

/-- Is any operand true? Those behind the first true one are not looked at. -/
def evalAny (attributes : Attributes) (groups : String → UserIds) :
    List Expression → Except ExpressionError Bool
  | [] => .ok false
  | operand :: operands => do
    let value ← operand.eval attributes groups
    if ← value.expectBoolean .disjunction then return true
    else evalAny attributes groups operands

end

end Expression

end BookingAccess
