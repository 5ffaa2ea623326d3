/-
**A grant that is deleted again.**

A grant was stored and propagated, and then its entry is deleted. If propagation does not come back
to where it has been, every new entry loses its parents, one after another. If whatever it came to
that was stored already had a parent then, nothing of that is lost. So the store is what it was.

* `Acyclic`, `Supported`: the two conditions;
* `Grown`: the store after a grant; `Grown.notChild`: the entry of the grant is nobody's child;
* `Grown.restored`: the store after the deletion.
-/

import BookingAccess.Proofs.Store.Spreading
import Mathlib.Data.Set.Finite.Basic

namespace BookingAccess.Store

open Relation

variable {registry : Registry} {graph : ObjectGraph} {origin extended store after : Store}
  {root entry : Entry}

/-- Propagation from the grant leads into no cycle. -/
def Acyclic (registry : Registry) (graph : ObjectGraph) (origin : Store) (identity : Identity)
    (grant : Grant) : Prop :=
  ∀ reached, ReflTransGen (Passes registry graph origin identity) grant reached →
    ¬ TransGen (Passes registry graph origin identity) reached reached

/-- The entries of the identity that propagation from the grant comes to have parents. -/
def Supported (registry : Registry) (graph : ObjectGraph) (origin : Store) (identity : Identity)
    (grant : Grant) : Prop :=
  ∀ entry, origin.Holds entry → entry.identity = identity →
    ReflTransGen (Passes registry graph origin identity) grant entry.grant →
      origin.HasParent entry.id

/-- The root was stored and propagated. -/
structure Grown (registry : Registry) (graph : ObjectGraph) (origin : Store) (root : Entry)
    (store : Store) : Prop where
  intact : store.Intact
  kept : ∀ {entry}, origin.Holds entry → store.Holds entry
  held : store.Holds root
  rootSprung : Sprung registry graph origin root root
  isNew : ∀ {entry}, store.Holds entry → origin.Holds entry ∨
    origin.lastId < entry.id ∧ (entry = root ∨ store.HasParent entry.id) ∧
      Sprung registry graph origin root entry
  links : ∃ links, store.dependencies = origin.dependencies ++ links ∧
    ∀ dependency ∈ links, IsLink registry graph origin root store dependency

theorem Grown.ofSpread (intact : origin.Intact)
    (stored : origin.createEntry root.identity root.object root.role = .ok (root, extended))
    {offers : List (Grant × DependencyKind)}
    (spread : Spread registry graph root offers extended store) :
    Grown registry graph origin root store := by
  have held {other : Entry} : extended.Holds other ↔ other = root ∨ origin.Holds other :=
    intact.numbered.holds_createEntry stored
  have atExtended := intact.createEntry stored
  have kept (other : Entry) (holds : origin.Holds other) : extended.Holds other :=
    held.mpr (.inr holds)
  have rootHeld : extended.Holds root := held.mpr (.inl rfl)
  have rootSprung : Sprung registry graph origin root root :=
    ⟨rfl, unstored_of_createEntry intact.numbered (fun _ => id) stored, .refl⟩
  refine ⟨spread.intact atExtended, fun holds => spread.holds atExtended (kept _ holds),
    spread.holds atExtended rootHeld, rootSprung, fun {entry} holds => ?_, ?_⟩
  · obtain ⟨-, isNew, same⟩ := createEntry_eq_ok_iff.mp stored
    have next : origin.lastId < root.id := by rw [isNew]; exact Nat.lt_succ_self _
    rcases spread.isNew atExtended kept rootSprung holds with earlier | ⟨later, hasParent, sprung⟩
    · rcases held.mp earlier with rfl | wasHeld
      · exact .inr ⟨next, .inl rfl, rootSprung⟩
      · exact .inl wasHeld
    · refine .inr ⟨?_, .inr hasParent, sprung⟩
      rw [same] at later
      exact Nat.lt_of_succ_lt later
  · rw [← dependencies_createEntry stored]
    exact spread.links atExtended kept rootHeld rootSprung

namespace Grown

variable (grown : Grown registry graph origin root store)
include grown

/-- A new entry has only new entries for parents. -/
theorem link_of_child (intact : origin.Intact) (holds : store.Holds entry)
    (isNew : ¬ origin.Holds entry) {dependency : Dependency}
    (member : dependency ∈ store.dependencies) (isChild : dependency.child = entry.id) :
    ∃ holder, store.Holds holder ∧ dependency.parent = holder.id ∧
      Sprung registry graph origin root holder ∧
      Passes registry graph origin root.identity holder.grant entry.grant := by
  obtain ⟨links, dependencies, areLinks⟩ := grown.links
  rw [dependencies] at member
  rcases List.mem_append.mp member with earlier | isLink
  · -- The ends of the earlier dependencies were stored.
    obtain ⟨child, found⟩ := Option.isSome_iff_exists.mp (intact.anchored dependency earlier).2
    have childHeld := intact.numbered.holds found
    have sameId : child.id = entry.id := (intact.numbered _ _ found).1.trans isChild
    exact absurd ((grown.kept childHeld).eq_of_id holds sameId ▸ childHeld) isNew
  · obtain ⟨holder, child, links, sprung, -, passes⟩ := areLinks dependency isLink
    obtain rfl := links.childHeld.eq_of_id holds (links.isChild.symm.trans isChild)
    exact ⟨holder, links.parentHeld, links.isParent, sprung, passes⟩

theorem root_isNew : ¬ origin.Holds root := fun holds =>
  grown.rootSprung.unstored root holds rfl rfl

/-- **The entry of the grant is nobody's child**, or propagation would have come back to it. -/
theorem notChild (intact : origin.Intact)
    (acyclic : Acyclic registry graph origin root.identity root.grant) :
    ¬ store.HasParent root.id := by
  rintro ⟨dependency, member, isChild⟩
  obtain ⟨holder, -, -, sprung, passes⟩ :=
    grown.link_of_child intact grown.held grown.root_isNew member isChild
  exact acyclic root.grant .refl (.tail' sprung.reached passes)

/-- Nothing that was stored before the grant is lost with it. -/
theorem spared (intact : origin.Intact)
    (supported : Supported registry graph origin root.identity root.grant)
    (revoked : Revoked store (.ofEntry root.id false) store after) :
    (∀ {entry}, origin.Holds entry → after.Holds entry) ∧
      origin.dependencies ⊆ after.dependencies := by
  obtain ⟨links, dependencies, areLinks⟩ := grown.links
  have earlier {dependency : Dependency} (member : dependency ∈ origin.dependencies) :
      dependency ∈ store.dependencies := dependencies ▸ List.mem_append_left _ member
  have notAimed (id : EntryId) (stored : (origin.get? id).isSome = true) :
      ¬ (Deletion.ofEntry root.id false).AimedAt store id := by
    intro aimed
    obtain ⟨entry, found⟩ := Option.isSome_iff_exists.mp stored
    have holds := intact.numbered.holds found
    have isRoot : entry.id = root.id :=
      aimed entry (grown.kept holds) (intact.numbered _ _ found).1
    exact grown.root_isNew ((grown.kept holds).eq_of_id grown.held isRoot ▸ holds)
  have parents (id : EntryId) (stored : (origin.get? id).isSome = true)
      (hasParent : store.HasParent id) : origin.HasParent id := by
    obtain ⟨dependency, member, rfl⟩ := hasParent
    rw [dependencies] at member
    rcases List.mem_append.mp member with early | isLink
    · exact ⟨dependency, early, rfl⟩
    · obtain ⟨holder, child, link, sprung, sameIdentity, passes⟩ := areLinks dependency isLink
      obtain ⟨entry, found⟩ := Option.isSome_iff_exists.mp stored
      have holds := intact.numbered.holds found
      obtain rfl := (grown.kept holds).eq_of_id link.childHeld
        ((intact.numbered _ _ found).1.trans link.isChild)
      rw [link.isChild]
      exact supported entry holds sameIdentity (sprung.reached.tail passes)
  obtain ⟨entries, kept⟩ := Revoked.spares (fun id => (origin.get? id).isSome = true)
    revoked notAimed fun id stored hasParent =>
      have ⟨link, member, isChild⟩ := parents id stored hasParent
      ⟨link, earlier member, isChild, (intact.anchored link member).1⟩
  refine ⟨fun {entry} holds => ?_, fun dependency member => ?_⟩
  · have stored : (origin.get? entry.id).isSome = true := Option.isSome_iff_exists.mpr ⟨_, holds⟩
    exact (entries entry.id stored).trans (grown.kept holds)
  · obtain ⟨parentStored, childStored⟩ := intact.anchored dependency member
    exact kept dependency (earlier member) parentStored childStored

/-- Nothing that came with the grant is left: a last entry would have a parent that is new too. -/
theorem swept (intact : origin.Intact)
    (acyclic : Acyclic registry graph origin root.identity root.grant)
    (pruned : Pruned (fun _ => False) store after) (gone : after.get? root.id = none)
    (holds : after.Holds entry) : origin.Holds entry := by
  let IsLeft (entry : Entry) : Prop := after.Holds entry ∧ ¬ origin.Holds entry
  let ComesFrom (first second : {entry // IsLeft entry}) : Prop :=
    TransGen (Passes registry graph origin root.identity) first.1.grant second.1.grant
  have sprung {entry : Entry} (isLeft : IsLeft entry) :
      (entry = root ∨ store.HasParent entry.id) ∧ Sprung registry graph origin root entry :=
    ((grown.isNew (pruned.within isLeft.1)).resolve_left isLeft.2).2
  have : Finite {entry // IsLeft entry} :=
    (Set.Finite.subset (List.finite_toSet store.entryList) fun entry isLeft =>
      grown.intact.numbered.mem_entryList.mpr (pruned.within isLeft.1)).to_subtype
  have : IsTrans _ ComesFrom := ⟨fun _ _ _ => TransGen.trans⟩
  have : Std.Irrefl ComesFrom :=
    ⟨fun entry cycle => acyclic _ (sprung entry.2).2.reached cycle⟩
  have wellFounded : WellFounded ComesFrom := Finite.wellFounded_of_trans_of_irrefl _
  have none (entry : {entry // IsLeft entry}) : False := by
    induction entry using wellFounded.induction with
    | h entry ih =>
      obtain ⟨entry, isLeft⟩ := entry
      have hasParent : store.HasParent entry.id := (sprung isLeft).1.resolve_left fun isRoot =>
        nomatch (isRoot ▸ gone).symm.trans isLeft.1
      obtain ⟨dependency, member, isChild⟩ : after.HasParent entry.id :=
        (pruned.stillUpheld (.inr hasParent)).resolve_left fun free =>
          nomatch free.symm.trans isLeft.1
      obtain ⟨member, parentStored, -⟩ := pruned.mem_dependencies.mp member
      obtain ⟨holder, holderHeld, isParent, holderSprung, passes⟩ :=
        grown.link_of_child intact (pruned.within isLeft.1) isLeft.2 member isChild
      have holderLeft : IsLeft holder := by
        refine ⟨pruned.holds holderHeld (isParent ▸ parentStored), fun wasHeld => ?_⟩
        exact holderSprung.unstored holder wasHeld holderSprung.identity rfl
      exact ih ⟨holder, holderLeft⟩ (.single passes)
  exact Classical.byContradiction fun isNew => none ⟨entry, holds, isNew⟩

/-- **After the deletion the store holds what it held before the grant.** -/
theorem restored (intact : origin.Intact)
    (acyclic : Acyclic registry graph origin root.identity root.grant)
    (supported : Supported registry graph origin root.identity root.grant)
    (pruned : Pruned (fun _ => False) store after)
    (revoked : Revoked store (.ofEntry root.id false) store after)
    (gone : after.get? root.id = none) :
    after.entries = origin.entries ∧ after.dependencies = origin.dependencies := by
  obtain ⟨kept, keptDependencies⟩ := grown.spared intact supported revoked
  have numbered : after.Numbered := (revoked.intact grown.intact.numbered grown.intact.anchored).1
  have lookup (id : EntryId) : after.get? id = origin.get? id := by
    cases found : after.get? id with
    | some entry =>
      have holds := grown.swept intact acyclic pruned gone (numbered.holds found)
      rw [← (numbered _ _ found).1]
      exact holds.symm
    | none =>
      cases was : origin.get? id with
      | none => rfl
      | some entry =>
        have holds := kept (intact.numbered.holds was)
        rw [Holds, (intact.numbered _ _ was).1, found] at holds
        exact nomatch holds
  refine ⟨Std.ExtTreeMap.ext_getElem? fun id => lookup id, ?_⟩
  obtain ⟨links, dependencies, areLinks⟩ := grown.links
  rw [pruned.dependencies, dependencies, List.filter_append]
  have left : (links.filter fun dependency =>
      (after.get? dependency.parent).isSome && (after.get? dependency.child).isSome) = [] := by
    refine List.filter_eq_nil_iff.mpr fun dependency member kept => ?_
    obtain ⟨holder, _, link, sprung, _⟩ := areLinks dependency member
    have stored := (Bool.and_eq_true_iff.mp kept).1
    have stillHeld := pruned.holds link.parentHeld (link.isParent ▸ stored)
    exact sprung.unstored holder ((lookup _).symm.trans stillHeld) sprung.identity rfl
  rw [left, List.append_nil, List.filter_eq_self]
  intro dependency member
  rw [lookup, lookup, Bool.and_eq_true_iff]
  exact intact.anchored dependency member

end Grown

end BookingAccess.Store
