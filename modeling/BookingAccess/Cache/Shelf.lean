/-
**Shelves of shared projections.**

A shelf keeps one projection for each key. A projection that is loaded takes a new serial number
and keeps it while it is brought up to date. When it is taken off the shelf its last state stays
readable under that number, for whoever still holds it, and changes no more.

* `Shelf.get?`: the projection on the shelf; `Shelf.view?`: the projection with a serial number;
* `Shelf.put`, `Shelf.update`, `Shelf.updateAll`, `Shelf.evict`, `Shelf.clear` change the shelf.
-/

import Std.Data.ExtTreeMap

namespace BookingAccess

/-- A projection and the serial number of its load. -/
structure Loaded (α : Type) where
  serial : Nat
  value : α
deriving DecidableEq

structure Shelf (κ α : Type) [Ord κ] where
  current : Std.ExtTreeMap κ (Loaded α)
  /-- The last states of projections that are no longer on the shelf. -/
  released : Std.ExtTreeMap Nat α
  nextSerial : Nat

namespace Shelf

variable {κ α : Type} [Ord κ] [Std.TransOrd κ]

def empty : Shelf κ α := ⟨∅, ∅, 0⟩

instance : Inhabited (Shelf κ α) := ⟨empty⟩

def get? (shelf : Shelf κ α) (key : κ) : Option (Loaded α) := shelf.current[key]?

/-- The value on the shelf, without its serial number. -/
def value? (shelf : Shelf κ α) (key : κ) : Option α := (shelf.get? key).map (·.value)

def size (shelf : Shelf κ α) : Nat := shelf.current.size

/-- The projection with this serial number, on the shelf or in its last state. -/
def view? (shelf : Shelf κ α) (serial : Nat) : Option α :=
  match shelf.current.values.find? (·.serial == serial) with
  | some loaded => some loaded.value
  | none => shelf.released[serial]?

/-- Put a newly loaded projection on the shelf. -/
def put (shelf : Shelf κ α) (key : κ) (value : α) : Loaded α × Shelf κ α :=
  let loaded := ⟨shelf.nextSerial, value⟩
  (loaded, { shelf with
    current := shelf.current.insert key loaded
    nextSerial := shelf.nextSerial + 1 })

/-- Bring the projection of a key up to date, if it is on the shelf. -/
def update (shelf : Shelf κ α) (key : κ) (change : α → α) : Shelf κ α :=
  match shelf.current[key]? with
  | none => shelf
  | some loaded =>
    { shelf with
      current := shelf.current.insert key { loaded with value := change loaded.value } }

def updateAll (shelf : Shelf κ α) (change : α → α) : Shelf κ α :=
  { shelf with
    current := shelf.current.map fun _ loaded => { loaded with value := change loaded.value } }

/-- Take the projection of a key off the shelf. -/
def evict (shelf : Shelf κ α) (key : κ) : Shelf κ α :=
  match shelf.current[key]? with
  | none => shelf
  | some loaded =>
    { shelf with
      current := shelf.current.erase key
      released := shelf.released.insert loaded.serial loaded.value }

/-- Take all projections off the shelf. -/
def clear (shelf : Shelf κ α) : Shelf κ α :=
  { shelf with
    current := ∅
    released := shelf.current.values.foldl
      (fun released loaded => released.insert loaded.serial loaded.value) shelf.released }

/-! ### What is on the shelf after a change -/

variable [Std.LawfulEqOrd κ] [DecidableEq κ]

theorem value?_put (shelf : Shelf κ α) (key other : κ) (value : α) :
    (shelf.put key value).2.value? other =
      if key = other then some value else shelf.value? other := by
  by_cases same : key = other <;>
    simp [value?, get?, put, Std.ExtTreeMap.getElem?_insert, same]

theorem value?_update (shelf : Shelf κ α) (key other : κ) (change : α → α) :
    (shelf.update key change).value? other =
      if key = other then (shelf.value? other).map change else shelf.value? other := by
  unfold update
  split
  · rename_i absent
    by_cases same : key = other
    · subst same
      simp [value?, get?, absent]
    · simp [same]
  · rename_i loaded found
    by_cases same : key = other
    · subst same
      simp [value?, get?, found]
    · simp [value?, get?, Std.ExtTreeMap.getElem?_insert, same]

theorem value?_evict (shelf : Shelf κ α) (key other : κ) :
    (shelf.evict key).value? other = if key = other then none else shelf.value? other := by
  unfold evict
  split
  · rename_i absent
    by_cases same : key = other
    · subst same
      simp [value?, get?, absent]
    · simp [same]
  · by_cases same : key = other
    · subst same
      simp [value?, get?]
    · simp [value?, get?, Std.ExtTreeMap.getElem?_erase, same]

omit [Std.LawfulEqOrd κ] [DecidableEq κ] in
theorem value?_clear (shelf : Shelf κ α) (key : κ) : shelf.clear.value? key = none := by
  simp [value?, get?, clear]

end Shelf

end BookingAccess
