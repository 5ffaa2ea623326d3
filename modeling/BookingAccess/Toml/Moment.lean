/-
**Dates and times of a TOML document.**

A moment is a date, a time of day, or both; with both it may tell how far the local time is from
universal time. Its normal form has a `T` between date and time, at most nine decimals of a second
without zeros at the end, and `Z` or a signed offset.

* `moment?`: the normal form of a moment.
-/

import BookingAccess.Text.Numeral

namespace BookingAccess.Toml

/-- The number with exactly these digits, if it lies between the bounds. -/
def between? (low high : Nat) (digits : List Char) : Option Nat :=
  (Text.natOfDigits? digits).filter fun value => low ≤ value && value ≤ high

def isLeapYear (year : Nat) : Bool := year % 4 == 0 && (year % 100 != 0 || year % 400 == 0)

def daysOfMonth (year month : Nat) : Nat :=
  if month == 2 then if isLeapYear year then 29 else 28
  else if [4, 6, 9, 11].contains month then 30 else 31

/-- A date and the characters behind it. -/
def date? : List Char → Option (List Char × List Char)
  | y₁ :: y₂ :: y₃ :: y₄ :: '-' :: m₁ :: m₂ :: '-' :: d₁ :: d₂ :: rest => do
    let year ← between? 0 9999 [y₁, y₂, y₃, y₄]
    let month ← between? 1 12 [m₁, m₂]
    let _ ← between? 1 (daysOfMonth year month) [d₁, d₂]
    return ([y₁, y₂, y₃, y₄, '-', m₁, m₂, '-', d₁, d₂], rest)
  | _ => none

/-- The decimals of a second in normal form. -/
def decimals (digits : List Char) : List Char :=
  match ((digits.take 9).reverse.dropWhile (· == '0')).reverse with
  | [] => []
  | digits => '.' :: digits

/-- A time of day and the characters behind it. A minute may have a leap second. -/
def time? : List Char → Option (List Char × List Char)
  | h₁ :: h₂ :: ':' :: m₁ :: m₂ :: ':' :: s₁ :: s₂ :: rest => do
    let _ ← between? 0 23 [h₁, h₂]
    let _ ← between? 0 59 [m₁, m₂]
    let _ ← between? 0 60 [s₁, s₂]
    let time := [h₁, h₂, ':', m₁, m₂, ':', s₁, s₂]
    match rest with
    | '.' :: rest =>
      match rest.takeWhile Char.isDigit with
      | [] => none
      | digits => return (time ++ decimals digits, rest.dropWhile Char.isDigit)
    | rest => return (time, rest)
  | _ => none

/-- The distance from universal time, which may be missing. -/
def offset? : List Char → Option (List Char)
  | [] => some []
  | ['Z'] => some ['Z']
  | ['z'] => some ['Z']
  | [sign, h₁, h₂, ':', m₁, m₂] => do
    let hours ← between? 0 23 [h₁, h₂]
    let minutes ← between? 0 59 [m₁, m₂]
    let sign ← if sign == '+' || sign == '-' then some sign else none
    let sign := if hours == 0 && minutes == 0 then '+' else sign
    return [sign, h₁, h₂, ':', m₁, m₂]
  | _ => none

/-- A time of day with its distance from universal time. -/
def zonedTime? (chars : List Char) : Option (List Char) := do
  let (time, rest) ← time? chars
  return time ++ (← offset? rest)

/-- The moment that these characters write, in normal form. -/
def moment? (chars : List Char) : Option (List Char) :=
  match date? chars with
  | some (date, []) => some date
  | some (date, mark :: rest) =>
    if mark == 'T' || mark == 't' || mark == ' ' then
      (zonedTime? rest).map fun time => date ++ 'T' :: time
    else none
  | none =>
    match time? chars with
    | some (time, []) => some time
    | _ => none

end BookingAccess.Toml
