/-
**Numbers of a TOML document.**

An underscore may stand between two digits. Integers are signed 64-bit words and may be written in
base two, eight or sixteen as well. A number with a fraction or an exponent is a double; its value
does not matter here, but it must not be above all doubles.

* `integer?`: the value of an integer;
* `isReal`: is this a number with a fraction or an exponent, or one of the special ones?
-/

import BookingAccess.Text.Numeral
import BookingAccess.Toml.Quoted

namespace BookingAccess.Toml

/-- The digits without the underscores between them. -/
def ungrouped? (isDigit : Char → Bool) : List Char → Option (List Char)
  | [] => none
  | [c] => if isDigit c then some [c] else none
  | c :: '_' :: rest => if isDigit c then (ungrouped? isDigit rest).map (c :: ·) else none
  | c :: rest => if isDigit c then (ungrouped? isDigit rest).map (c :: ·) else none

/-- Is there a minus sign, and what stands behind the sign? -/
def splitSign : List Char → Bool × List Char
  | '-' :: rest => (true, rest)
  | '+' :: rest => (false, rest)
  | chars => (false, chars)

/-- The digits of a decimal number, which starts with zero only if it is zero. -/
def decimalDigits? (chars : List Char) : Option (List Char) :=
  (ungrouped? Char.isDigit chars).filter fun digits =>
    digits == ['0'] || digits.head? != some '0'

/-! ### Integers -/

def decimal? (chars : List Char) : Option Int := do
  let (negative, rest) := splitSign chars
  (Text.integerOfDigits negative (← decimalDigits? rest)).toOption

/-- The number with these digits in a base, if it is a positive signed 64-bit word or zero. -/
def inBase? (base : Nat) (chars : List Char) : Option Int := do
  let isDigit := fun c => (hexDigit? c).any (· < base)
  let digits ← (← ungrouped? isDigit chars).mapM hexDigit?
  let value := digits.foldl (fun value digit => base * value + digit) 0
  if value < Nat.pow 2 63 then some value else none

def integer? : List Char → Option Int
  | '0' :: 'x' :: digits => inBase? 16 digits
  | '0' :: 'o' :: digits => inBase? 8 digits
  | '0' :: 'b' :: digits => inBase? 2 digits
  | chars => decimal? chars

/-! ### Numbers with a fraction or an exponent -/

/-- The least number that rounds up beyond all doubles: half a step above the greatest one. -/
def doubleLimit : Nat := (Nat.pow 2 54 - 1) * Nat.pow 2 970

/-- Is `digits * 10 ^ exponent` beyond all doubles? Most of the time the number of its places says
so; the numbers between `10 ^ 308` and `10 ^ 309` are compared with the limit. -/
def isBeyondDoubles (digits : Nat) (exponent : Int) : Bool :=
  let places := (Nat.toDigits 10 digits).length + exponent
  if digits == 0 || places < 309 then false
  else if places > 309 then true
  else if exponent ≥ 0 then digits * Nat.pow 10 exponent.toNat ≥ doubleLimit
  else digits ≥ doubleLimit * Nat.pow 10 (-exponent).toNat

def isExponentMark (c : Char) : Bool := c == 'e' || c == 'E'

/-- The value of what stands behind an exponent mark. -/
def exponent? (chars : List Char) : Option Int := do
  let (negative, rest) := splitSign chars
  let value : Int := Text.digitsValue (← ungrouped? Char.isDigit rest)
  return if negative then -value else value

/-- The digits behind the point and the exponent. One of the two may be missing. -/
def fraction? : List Char → Option (List Char × Int)
  | '.' :: rest => do
    let digits ← ungrouped? Char.isDigit (rest.takeWhile (!isExponentMark ·))
    match rest.dropWhile (!isExponentMark ·) with
    | [] => return (digits, 0)
    | _ :: rest => return (digits, ← exponent? rest)
  | c :: rest => if isExponentMark c then (exponent? rest).map ([], ·) else none
  | [] => none

/-- The special numbers. -/
def isInfinityOrNaN (chars : List Char) : Bool :=
  chars == ['i', 'n', 'f'] || chars == ['n', 'a', 'n']

def isReal (chars : List Char) : Bool :=
  let (negative, rest) := splitSign chars
  let isWhole := fun c => c != '.' && !isExponentMark c
  isInfinityOrNaN rest ||
    match decimalDigits? (rest.takeWhile isWhole), fraction? (rest.dropWhile isWhole) with
    | some whole, some (fraction, exponent) =>
      negative || !isBeyondDoubles (Text.digitsValue (whole ++ fraction))
        (exponent - fraction.length)
    | _, _ => false

end BookingAccess.Toml
