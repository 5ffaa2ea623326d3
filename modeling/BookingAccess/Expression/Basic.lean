/-
**Authorization expressions.**

An expression decides whether a user holds a system-wide capability. It speaks about the
attributes of the user and about membership in groups, and it is evaluated from left to right.

* `Expression` is the tree of an expression; chains of one connective are flat;
* `Expression.groupReferences` lists the groups that the tree mentions;
* `ExpressionError.message` is the wording of every fault of reading and evaluating.
-/

import BookingAccess.Text.Numeral
import BookingAccess.UserIds

namespace BookingAccess

/-- A value that an expression computes with. -/
inductive Value
  | null
  | boolean (value : Bool)
  | integer (value : Int)
  | text (value : String)
  | users (value : UserIds)
deriving DecidableEq

inductive ValueType
  | null
  | boolean
  | integer
  | text
  | users
deriving DecidableEq

def ValueType.render : ValueType → String
  | .null => "null"
  | .boolean => "boolean"
  | .integer => "integer"
  | .text => "string"
  | .users => "user set"

def Value.type : Value → ValueType
  | .null => .null
  | .boolean _ => .boolean
  | .integer _ => .integer
  | .text _ => .text
  | .users _ => .users

inductive Comparison
  | equal
  | different
  | less
  | lessOrEqual
  | greater
  | greaterOrEqual
  /-- Membership in a set of users. -/
  | member
deriving DecidableEq

inductive Operator
  | comparison (relation : Comparison)
  | negation
  | conjunction
  | disjunction
deriving DecidableEq

def Comparison.symbol : Comparison → String
  | .equal => "=="
  | .different => "!="
  | .less => "<"
  | .lessOrEqual => "<="
  | .greater => ">"
  | .greaterOrEqual => ">="
  | .member => "in"

def Operator.symbol : Operator → String
  | .comparison relation => relation.symbol
  | .negation => "!"
  | .conjunction => "&&"
  | .disjunction => "||"

/-- The tree of an expression. -/
inductive Expression
  | literal (value : Value)
  /-- An attribute of the user; a name of no attribute has the value null. -/
  | property (name : String)
  /-- The members of the named group. -/
  | group (name : String)
  | negation (operand : Expression)
  | conjunction (operands : List Expression)
  | disjunction (operands : List Expression)
  | comparison (relation : Comparison) (left right : Expression)

namespace Expression

mutual

/-- The names of groups in the tree, from left to right. -/
def groupReferences : Expression → List String
  | .literal _ => []
  | .property _ => []
  | .group name => [name]
  | .negation operand => operand.groupReferences
  | .conjunction operands => groupReferencesIn operands
  | .disjunction operands => groupReferencesIn operands
  | .comparison _ left right => left.groupReferences ++ right.groupReferences

def groupReferencesIn : List Expression → List String
  | [] => []
  | operand :: operands => operand.groupReferences ++ groupReferencesIn operands

end

end Expression

/-- Why an expression cannot be read, or has no boolean value. -/
inductive ExpressionError
  /-- The text is not derived by the grammar. -/
  | malformed
  /-- The tree of a text has a rule where none such belongs. -/
  | unexpectedRule (name : String)
  /-- The tree of a text ends where more belongs. -/
  | missingToken (context : String)
  | unknownRelation (text : String)
  /-- An integer numeral lies outside the signed 64-bit range. -/
  | integerOutOfRange (numeral : String) (cause : Text.RangeError)
  /-- `group` is called with anything but one string literal. -/
  | groupArguments
  | unknownFunction (name : String)
  | notBoolean (type : ValueType)
  | typeMismatch (operator : Operator) (left right : ValueType)
deriving DecidableEq

def ExpressionError.message : ExpressionError → String
  | .malformed => "syntax error:"
  | .unexpectedRule name => s!"syntax error: unexpected rule: {name}"
  | .missingToken context => s!"syntax error: missing token: {context}"
  | .unknownRelation text => s!"syntax error: unknown operator '{text}'"
  | .integerOutOfRange numeral cause => s!"syntax error: invalid integer '{numeral}': {cause.message}"
  | .groupArguments => "syntax error: group() takes exactly one string literal"
  | .unknownFunction name => s!"unknown function '{name}'"
  | .notBoolean type => s!"expression evaluated to {type.render} instead of a boolean"
  | .typeMismatch operator left right =>
    s!"operator '{operator.symbol}' cannot be applied to {left.render} and {right.render}"

end BookingAccess
