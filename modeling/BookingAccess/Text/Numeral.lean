/-
**Decimal numerals.**

Reading whole numbers in ASCII digits, with the bounds of 64-bit words. A numeral may start with
zeros; digits of other scripts and digit separators are not part of one.
-/

namespace BookingAccess.Text

/-- The number that a list of digits writes, most significant digit first. -/
def digitsValue (digits : List Char) : Nat :=
  digits.foldl (fun value c => 10 * value + (c.toNat - '0'.toNat)) 0

/-- The number that a non-empty run of digits writes. -/
def natOfDigits? (digits : List Char) : Option Nat :=
  if digits.isEmpty || !digits.all Char.isDigit then none else some (digitsValue digits)

/-- The number of a numeral with an optional plus sign, if it is below `2 ^ 64`. -/
def readWord64? (text : String) : Option Nat :=
  let digits := match text.toList with
    | '+' :: digits => digits
    | digits => digits
  (natOfDigits? digits).filter (· < Nat.pow 2 64)

/-- Why an integer numeral has no value among the signed 64-bit integers. -/
inductive RangeError
  | tooLarge
  | tooSmall
deriving DecidableEq

def RangeError.message : RangeError → String
  | .tooLarge => "number too large to fit in target type"
  | .tooSmall => "number too small to fit in target type"

/-- The signed 64-bit integer with this sign and these digits. -/
def integerOfDigits (negative : Bool) (digits : List Char) : Except RangeError Int :=
  let size := digitsValue digits
  if negative then
    if size ≤ Nat.pow 2 63 then .ok (-size) else .error .tooSmall
  else
    if size < Nat.pow 2 63 then .ok size else .error .tooLarge

end BookingAccess.Text
