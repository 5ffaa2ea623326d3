/-
**Structured data.**

What a configuration text says before anything is known about its meaning. Readers of a type take
a value of `Data` apart and fail with `none` where it does not have the form of the type.

* `Data.record?` reads a record with known fields, which may also be given as a list in the order
  of the fields;
* `Data.optional?`, `Data.list?`, `Data.map?` and `Data.set?` read the usual containers.
-/

import Std.Data.ExtTreeMap
import Std.Data.ExtTreeSet

namespace BookingAccess

inductive Data
  | null
  | boolean (value : Bool)
  | integer (value : Int)
  /-- A number that is written with a fraction or an exponent. -/
  | real
  | text (value : String)
  | list (items : List Data)
  | record (fields : List (String × Data))

namespace Data

instance : Inhabited Data := ⟨null⟩

def text? : Data → Option String
  | .text value => some value
  | _ => none

def natural? : Data → Option Nat
  | .integer (.ofNat value) => some value
  | _ => none

/-- What becomes of items of a list beyond the fields of the record that the list stands for. -/
inductive Surplus
  | refused
  | ignored
deriving DecidableEq

/-- The fields of a record whose type has these fields. -/
def record? (surplus : Surplus) (names : List String) : Data → Option (List (String × Data))
  | .record fields => some fields
  | .list items =>
    if surplus = .refused ∧ names.length < items.length then none else some (names.zip items)
  | _ => none

/-- A field that may be left out. -/
def field? {α : Type} (fields : List (String × Data)) (name : String) (absent : α)
    (read : Data → Option α) : Option α :=
  match fields.lookup name with
  | none => some absent
  | some value => read value

/-- A field that has to be there. -/
def required? {α : Type} (fields : List (String × Data)) (name : String)
    (read : Data → Option α) : Option α :=
  (fields.lookup name).bind read

/-- A value that null leaves open. -/
def optional? {α : Type} (read : Data → Option α) : Data → Option (Option α)
  | .null => some none
  | value => (read value).map some

def list? {α : Type} (read : Data → Option α) : Data → Option (List α)
  | .list items => items.mapM read
  | _ => none

def set? {α : Type} [Ord α] [Std.TransOrd α] (read : Data → Option α) (value : Data) :
    Option (Std.ExtTreeSet α) :=
  (value.list? read).map fun items => .ofList items

def map? {α β : Type} [Ord α] [Std.TransOrd α] (key : String → α) (read : Data → Option β) :
    Data → Option (Std.ExtTreeMap α β)
  | .record fields =>
    (fields.mapM fun (name, value) => (read value).map fun value => (key name, value)).map
      fun pairs => .ofList pairs
  | _ => none

/-- One of the named choices: its name, or a record of its name and nothing. -/
def choice? {α : Type} (choices : List (String × α)) : Data → Option α
  | .text name => choices.lookup name
  | .record [(name, .null)] => choices.lookup name
  | .record [(name, .record [])] => choices.lookup name
  | _ => none

end Data

end BookingAccess
