/-
**The working sets of a transaction.**

A transaction remembers what has become of entries since it began: those it added, those it
removed, and those it added and removed again. The last are kept too, since a projection may have
been loaded in between.

* `WorkingSets.add`, `WorkingSets.remove` record one entry.
-/

import BookingAccess.Entry

namespace BookingAccess

structure WorkingSets where
  added : Std.ExtTreeMap EntryId Entry
  removed : Std.ExtTreeMap EntryId Entry
  /-- Added and removed again. -/
  cancelled : Std.ExtTreeMap EntryId Entry
deriving DecidableEq

namespace WorkingSets

def empty : WorkingSets := ⟨∅, ∅, ∅⟩

instance : Inhabited WorkingSets := ⟨empty⟩

/-- Record a new entry. One whose number was removed is back where it was. -/
def add (sets : WorkingSets) (entry : Entry) : WorkingSets :=
  if sets.removed.contains entry.id then { sets with removed := sets.removed.erase entry.id }
  else { sets with added := sets.added.insert entry.id entry }

/-- Record a deleted entry. One that was added is cancelled. -/
def remove (sets : WorkingSets) (entry : Entry) : WorkingSets :=
  match sets.added[entry.id]? with
  | some added =>
    { sets with
      added := sets.added.erase entry.id
      cancelled := sets.cancelled.insert entry.id added }
  | none => { sets with removed := sets.removed.insert entry.id entry }

end WorkingSets

end BookingAccess
