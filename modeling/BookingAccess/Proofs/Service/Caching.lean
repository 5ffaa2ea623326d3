/-
**What changes of the cache leave alone.**

Groups are changed in the directory and then in the cache, and a commit works what was added and
removed into the cache. Apart from the entries that it is told of, none of this puts an entry there:
entries are kept or forgotten, or loaded from the store. A relation that does not mind is kept.

* `KeptByCaching`: such relations; `Steady` is one;
* `GroupChange.keeps`: they are kept when a group is changed;
* `KeptByCaching.applyAddition`, `KeptByCaching.applyRemoval`: and by a commit, if each entry that
  it is told of may be put in the cache.
-/

import BookingAccess.Proofs.Run
import BookingAccess.Proofs.Service.Reading
import BookingAccess.Proofs.Service.Regrouping

namespace BookingAccess

open Service

/-- No entry is put in the cache. -/
def Forgets (change : Cache → Cache) : Prop :=
  ∀ (cache : Cache) (id : EntryId) (entry : Entry),
    (change cache).entries[id]? = some entry → cache.entries[id]? = some entry

/-- A relation that is kept by reading, by changes of the directory, and by whatever else happens to
the cache but that an entry is put there. -/
class KeptByCaching (relation : Service → Service → Prop) : Prop
    extends KeptByReading relation where
  directoryCall : ∀ {α : Type} (kind : DirectoryCall)
    (answer : Directory → Except DirectoryError (α × Directory)),
    Keeps relation (DirectoryClient.call kind answer)
  forgets : ∀ {change : Cache → Cache}, Forgets change → Keeps relation (modifyCache change)

instance : KeptByCaching Steady where
  directoryCall := Steady.directoryCall
  forgets _ := KeptByAsking.modifyCache

variable {relation : Service → Service → Prop} [KeptByCaching relation]

theorem KeptByCaching.directoryChange (kind : DirectoryCall)
    (answer : Directory → Except DirectoryError Directory) :
    Keeps relation (DirectoryClient.change kind answer) :=
  directoryCall kind _

/-! ### Groups -/

theorem forgets_membershipChanged (group : GroupId) (user : UserId)
    (change : UserIds → UserIds) : Forgets (membershipChanged group user change) := by
  intro cache id entry found
  unfold membershipChanged at found
  split at found <;> exact found

theorem forgets_removeGroup (group : GroupId) (users : List UserId) :
    Forgets fun cache => users.foldl Cache.removeUserProjection (cache.removeGroup group) := by
  intro cache id entry found
  have same : (users.foldl Cache.removeUserProjection (cache.removeGroup group)).entries =
      cache.entries := (foldl_removeUserProjection users _).1
  exact same ▸ found

/-- **A change of a group keeps the relation.** -/
theorem GroupChange.keeps (change : GroupChange) : Keeps relation change.action := by
  cases change with
  | create group =>
    refine .map ?_
    unfold createGroup
    split
    · exact .stop
    · exact .bind (.ofDirectory (KeptByCaching.directoryCall _ _)) fun _ =>
        .bind (KeptByCaching.forgets fun _ _ _ => id) fun _ => .pure
  | modify group =>
    show Keeps relation (modifyGroup group)
    unfold modifyGroup
    split
    · exact .stop
    · exact .bind (.ofDirectory (KeptByCaching.directoryChange _ _)) fun _ =>
        KeptByCaching.forgets fun _ _ _ => id
  | delete group =>
    show Keeps relation (deleteGroup group)
    unfold deleteGroup
    split
    · exact .stop
    · exact .bind (KeptByReading.groupMembers group) fun members =>
        .bind (.ofDirectory (KeptByCaching.directoryChange _ _)) fun _ =>
          KeptByCaching.forgets (forgets_removeGroup group members.toList)
  | addUser group user =>
    show Keeps relation (addGroupUser group user)
    unfold addGroupUser
    split
    · exact .stop
    · exact .bind (.ofDirectory (KeptByCaching.directoryChange _ _)) fun _ =>
        KeptByCaching.forgets (forgets_membershipChanged group user _)
  | removeUser group user =>
    show Keeps relation (removeGroupUser group user)
    unfold removeGroupUser
    split
    · exact .stop
    · exact .bind (.ofDirectory (KeptByCaching.directoryChange _ _)) fun _ =>
        KeptByCaching.forgets (forgets_membershipChanged group user _)

/-! ### Entries -/

theorem forgets_removeEntry (id : EntryId) : Forgets (·.removeEntry id) := by
  intro cache number other found
  have found : (cache.entries.erase id)[number]? = some other := found
  rw [OrderedMap.lookup_erase] at found
  split at found
  · exact nomatch found
  · exact found

theorem forgets_clear : Forgets Cache.clear := fun _ _ _ found => by
  cases Std.ExtTreeMap.getElem?_empty.symm.trans found

namespace KeptByCaching

theorem updateUserProjection (user : UserId) (change : UserProjection → UserProjection) :
    Keeps relation (updateUserProjection user change) :=
  forgets fun _ _ _ => id

theorem resolveUsers (identity : Identity) : Keeps relation (resolveUsers identity) := by
  unfold Service.resolveUsers
  refine .tryCatch (keeps_usersOf identity) fun fault => ?_
  split
  · exact .bind (KeptByReading.record _) fun _ => .pure
  · exact .throw

theorem usersTouchedBy (identity : Identity) : Keeps relation (usersTouchedBy identity) := by
  unfold Service.usersTouchedBy
  refine .tryCatch (keeps_usersOf identity) fun fault => ?_
  split
  · exact .pure
  · exact .throw

theorem addToUsers (entry : Entry) (users : List UserId) :
    Keeps relation (addToUsers entry users) := by
  induction users with
  | nil => exact .pure
  | cons user users ih =>
    unfold Service.addToUsers
    split
    · exact .bind (KeptByReading.loadedUserProjection user) fun _ =>
        .bind .get fun _ => .bind (updateUserProjection _ _) fun _ => ih
    · exact ih

theorem removeFromUsers (entry : Entry) (users : List UserId) :
    Keeps relation (removeFromUsers entry users) := by
  induction users with
  | nil => exact .pure
  | cons user users ih =>
    unfold Service.removeFromUsers
    exact .bind .get fun _ => .bind (updateUserProjection _ _) fun _ => ih

theorem objectGains (entry : Entry) (members : UserIds) : Keeps relation (do
    match (← get).cache.objectProjections.get? entry.object with
    | some _ => updateObjectProjection entry.object fun projection =>
        (projection.add entry members).2
    | none =>
      let _ ← loadedObjectProjection entry.object) := by
  refine .bind .get fun _ => ?_
  split
  · exact forgets fun _ _ _ => id
  · exact .bind (KeptByReading.loadedObjectProjection _) fun _ => .pure

/-- **An addition**, if the entry may be put in the cache. -/
theorem applyAddition {service : Service} {entry : Entry}
    (put : KeepsAt relation service (modifyCache fun cache => cache.putEntry entry)) :
    KeepsAt relation service (applyAddition entry) := by
  unfold Service.applyAddition
  refine .bind put fun _ middle _ => ?_
  refine Keeps.bind (resolveUsers _) (fun members => ?_) middle
  split
  · exact .bind .get fun _ => .bind (forgets fun _ _ _ => id) fun _ => objectGains entry _
  · exact .bind (addToUsers entry _) fun _ => objectGains entry _

/-- What is left to do once the entry is forgotten. -/
theorem projectionsLose (entry : Entry) : Keeps relation (do
    match ← Service.usersTouchedBy entry.identity with
    | .everyone =>
      let registry := (← get).registry
      updateUserProjections fun projection => (projection.remove registry entry).2
    | .only users => Service.removeFromUsers entry users.toList
    updateObjectProjection entry.object fun projection => (projection.remove entry).2) := by
  refine .bind (usersTouchedBy _) fun members => ?_
  split
  · exact .bind .get fun _ => .bind (forgets fun _ _ _ => id) fun _ => forgets fun _ _ _ => id
  · exact .bind (removeFromUsers entry _) fun _ => forgets fun _ _ _ => id

/-- **A removal.** -/
theorem applyRemoval (entry : Entry) : Keeps relation (applyRemoval entry) := by
  unfold Service.applyRemoval
  exact .bind (forgets (forgets_removeEntry entry.id)) fun _ => projectionsLose entry

end KeptByCaching

end BookingAccess
