/-
**Orders read off keys.**

Names, objects and identities are compared by their fields. The ordered maps of the library need
that comparison to be lawful: two values that compare equal are the same value.

* `lawfulEq_of_key`: comparing by one injective key is lawful;
* `lawfulEq_of_keys`: so is comparing by a first key and then by a second one, when the two
  together determine the value.
-/

import Std.Data.ExtTreeMap

namespace BookingAccess.KeyOrder

variable {α β γ : Type} [Ord β] [Ord γ]

/-- Values that compare equal under an injective key are equal. -/
theorem lawfulEq_of_key [Std.LawfulEqOrd β] (key : α → β)
    (injective : ∀ first second, key first = key second → first = second) :
    Std.LawfulEqCmp (compareOn key) where
  compare_self := Std.ReflOrd.compare_self
  eq_of_compare equal := injective _ _ (Std.LawfulEqOrd.eq_of_compare equal)

/-- Values that compare equal under two keys that determine them are equal. -/
theorem lawfulEq_of_keys [Std.LawfulEqOrd β] [Std.LawfulEqOrd γ] (key : α → β) (tie : α → γ)
    (injective : ∀ first second, key first = key second → tie first = tie second →
      first = second) :
    Std.LawfulEqCmp (compareLex (compareOn key) (compareOn tie)) where
  compare_self {value} := by
    have same : compareOn key value value = .eq := Std.ReflOrd.compare_self
    have sameTie : compareOn tie value value = .eq := Std.ReflOrd.compare_self
    simp [compareLex, same, sameTie]
  eq_of_compare {first second} equal := by
    simp only [compareLex, Ordering.then_eq_eq] at equal
    exact injective _ _ (Std.LawfulEqOrd.eq_of_compare equal.1)
      (Std.LawfulEqOrd.eq_of_compare equal.2)

end BookingAccess.KeyOrder
