/-
**From the tree of a text to its expression.**

The tree that the grammar gives is rebuilt as an expression from left to right. A chain of one
operand is that operand. Two things are checked on the way that the grammar leaves open: integers
have to fit into 64 bits, and the only function is `group`, of one string literal.

* `Expression.ofText?` is the expression of a whole text, and none for a text of gaps.
-/

import BookingAccess.Expression.Basic
import BookingAccess.Expression.Grammar

namespace BookingAccess.Expression

def Connective.connect : Connective → List Expression → Expression
  | .or => .disjunction
  | .and => .conjunction

/-- A chain of one operand is the operand. -/
def Connective.collapse (connective : Connective) :
    List Expression → Except ExpressionError Expression
  | [] => .error (.missingToken "operand")
  | [operand] => .ok operand
  | operands => .ok (connective.connect operands)

def readRelation (text : List Char) : Except ExpressionError Comparison :=
  match String.ofList text with
  | "==" => .ok .equal
  | "!=" => .ok .different
  | "<" => .ok .less
  | "<=" => .ok .lessOrEqual
  | ">" => .ok .greater
  | ">=" => .ok .greaterOrEqual
  | "in" => .ok .member
  | other => .error (.unknownRelation other)

/-- The value of an integer with an optional minus sign. -/
def integerOf (text : List Char) : Except Text.RangeError Int :=
  match text with
  | '-' :: digits => Text.integerOfDigits true digits
  | digits => Text.integerOfDigits false digits

def readInteger (text : List Char) : Except ExpressionError Expression :=
  match integerOf text with
  | .ok value => .ok (.literal (.integer value))
  | .error cause => .error (.integerOutOfRange (String.ofList text) cause)

/-- The members of a group, if the arguments are its name. -/
def groupOf : List Expression → Except ExpressionError Expression
  | [.literal (.text name)] => .ok (.group name)
  | _ => .error .groupArguments

mutual

/-- The operands of a chain. -/
def readOperands (connective : Connective) :
    List (ParseTree Rule) → Except ExpressionError (List Expression)
  | [] => .ok []
  | .node rule _ inner :: trees =>
    if rule = connective.operand then do
      let operand ←
        match connective with
        | .or => readOperands .and inner >>= Connective.and.collapse
        | .and => readNegations 0 none inner
      let operands ← readOperands connective trees
      return operand :: operands
    else if rule = .connective connective then readOperands connective trees
    else .error (.unexpectedRule rule.name)

/-- An operand under so many negations as there are before it. -/
def readNegations (count : Nat) (operand : Option Expression) :
    List (ParseTree Rule) → Except ExpressionError Expression
  | [] =>
    match operand with
    | none => .error (.missingToken "negated operand")
    | some operand => .ok (Nat.repeat Expression.negation count operand)
  | .node .not _ _ :: trees => readNegations (count + 1) operand trees
  | .node .comparison _ inner :: trees => do
    let operand ← readComparison inner
    readNegations count (some operand) trees
  | .node rule _ _ :: _ => .error (.unexpectedRule rule.name)

def readComparison : List (ParseTree Rule) → Except ExpressionError Expression
  | [] => .error (.missingToken "left operand")
  | [left] => readPrimary left
  | [left, relation] => do
    let _ ← readPrimary left
    let _ ← readRelation relation.text
    .error (.missingToken "right operand")
  | left :: relation :: right :: _ => do
    let left ← readPrimary left
    let relation ← readRelation relation.text
    let right ← readPrimary right
    return .comparison relation left right

def readPrimary : ParseTree Rule → Except ExpressionError Expression
  | .node .text text _ => .ok (.literal (.text (String.ofList (text.drop 1).dropLast)))
  | .node .integer text _ => readInteger text
  | .node .boolean text _ => .ok (.literal (.boolean (String.ofList text == "true")))
  | .node .null _ _ => .ok (.literal .null)
  | .node .identifier text _ => .ok (.property (String.ofList text))
  | .node .call _ inner => readCall inner
  | .node (.chain .or) _ inner => readOperands .or inner >>= Connective.or.collapse
  | .node rule _ _ => .error (.unexpectedRule rule.name)

/-- The function of a call is checked before its arguments are read. -/
def readCall : List (ParseTree Rule) → Except ExpressionError Expression
  | [] => .error (.missingToken "function name")
  | .node _ text _ :: arguments =>
    if String.ofList text == "group" then do
      groupOf (← readArguments arguments)
    else .error (.unknownFunction (String.ofList text))

def readArguments : List (ParseTree Rule) → Except ExpressionError (List Expression)
  | [] => .ok []
  | .node _ _ inner :: trees => do
    let argument ← readOperands .or inner >>= Connective.or.collapse
    let arguments ← readArguments trees
    return argument :: arguments

end

/-- The expression of a text, or none for a text of gaps. -/
def ofText? (source : String) : Except ExpressionError (Option Expression) :=
  match parse? source.toList with
  | none => .error .malformed
  | some tree =>
    match tree.inner.find? (·.rule = .chain .or) with
    | none => .ok none
    | some chain => do
      let operands ← readOperands .or chain.inner
      return some (← Connective.or.collapse operands)

end BookingAccess.Expression
