/-
**Passing grants on.**

The grants on an object are passed on to another one in turn. Each time the entry with the same
grant is found there, or it is stored with everything that ensues, and the two are linked. What came
with one of them may be found in the turn of the next, and what is linked already stays as it is.

* `Obtains`: an entry is found, or stored and propagated; `Passed`: one parent after another;
* `Grafted`: the store in the meantime; `Passed.grafted`: by induction on the turns;
* `Endowed`: the store in the end; `endowed_of_passed`.
-/

import BookingAccess.Proofs.Store.Ensuing
import Mathlib.Data.List.Forall2

namespace BookingAccess

/-- What ensues from a grant later, did so before. -/
theorem Grant.Ensues.mono {registry : Registry} {graph : ObjectGraph} {before after : Store}
    {identity : Identity} {root grant : Grant}
    (ensues : Ensues registry graph after identity root grant)
    (kept : ∀ entry, before.Holds entry → after.Holds entry) :
    Ensues registry graph before identity root grant := by
  induction ensues with
  | root => exact .root
  | next _ leads unstored ih =>
    exact .next ih leads fun entry holds => unstored entry (kept entry holds)

namespace Store

variable {registry : Registry} {graph : ObjectGraph} {object : ObjectRef} {kind : DependencyKind}
  {origin before middle after : Store} {parent entry other : Entry} {parents created : List Entry}
  {bonds : List (Entry × Entry)} {offers : List (Grant × DependencyKind)} {dependency : Dependency}

/-! ### One entry -/

/-- The entry was stored already, or it was stored with everything that ensues from it. -/
inductive Obtains (registry : Registry) (graph : ObjectGraph) (entry : Entry) :
    Store → Store → Prop
  | found {store : Store} : store.Holds entry → Obtains registry graph entry store store
  | stored {before extended after : Store} :
      before.createEntry entry.identity entry.object entry.role = .ok (entry, extended) →
      Spread registry graph entry (entry.grant.offers registry graph) extended after →
      Obtains registry graph entry before after

/-- A step of propagation: the child entry is obtained and linked. -/
theorem Obtains.spread (obtains : Obtains registry graph entry before middle)
    (sameIdentity : entry.identity = parent.identity)
    (leads : parent.grant.Leads registry graph kind entry.grant)
    (tied : Tied ⟨parent.id, entry.id, kind⟩ middle after) :
    Spread registry graph parent [(entry.grant, kind)] before after := by
  cases obtains with
  | found holds => exact .linked .nothing holds sameIdentity leads tied
  | stored stored spread =>
    rw [sameIdentity] at stored
    exact .granted .nothing stored leads spread tied

namespace Obtains

variable (obtains : Obtains registry graph entry before after) (atBefore : before.Intact)
include obtains atBefore

theorem intact : after.Intact := by
  cases obtains with
  | found _ => exact atBefore
  | stored stored spread => exact spread.intact (atBefore.createEntry stored)

theorem kept (holds : before.Holds other) : after.Holds other := by
  cases obtains with
  | found _ => exact holds
  | stored stored spread => exact (Grown.ofSpread atBefore stored spread).kept holds

theorem held : after.Holds entry := by
  cases obtains with
  | found holds => exact holds
  | stored stored spread => exact (Grown.ofSpread atBefore stored spread).held

/-- Whatever is new ensues from the entry, which is new then. -/
theorem ensues (isNew : IsNew before after other) :
    IsNew before after entry ∧ other.identity = entry.identity ∧
      Grant.Ensues registry graph before entry.identity entry.grant other.grant := by
  cases obtains with
  | found _ => exact absurd isNew.held isNew.fresh
  | stored stored spread =>
    obtain ⟨ensued, rootIsNew⟩ := ensued_of_spread atBefore stored spread
    exact ⟨rootIsNew, (ensued.entries _ _).mp ⟨other, isNew, rfl, rfl⟩⟩

theorem attended (isNew : IsNew before after other) :
    Attended (other.grant.offers registry graph) other after := by
  cases obtains with
  | found _ => exact absurd isNew.held isNew.fresh
  | stored stored spread => exact attended_of_spread atBefore stored spread isNew

/-- An entry that was not stored before is there with exactly what ensues. -/
theorem ensued (unstored : before.Unstored entry.identity entry.grant) :
    Ensued registry graph entry.identity entry.grant before after := by
  cases obtains with
  | found holds => exact absurd rfl (unstored entry holds rfl)
  | stored stored spread => exact (ensued_of_spread atBefore stored spread).1

/-- An earlier entry is left alone. -/
theorem attendedBefore (held : before.Holds other) (attended : Attended offers other before) :
    Attended offers other after := by
  cases obtains with
  | found _ => exact attended
  | stored stored spread => exact attended.granted atBefore held stored spread

/-- New dependencies are those of new entries. -/
theorem links : ∃ links, after.dependencies = before.dependencies ++ links ∧
    ∀ dependency ∈ links, ∃ holder, IsNew before after holder ∧ dependency.parent = holder.id := by
  cases obtains with
  | found _ => exact ⟨[], (List.append_nil _).symm, fun _ never => nomatch never⟩
  | stored stored spread =>
    obtain ⟨links, dependencies, linked⟩ := (ensued_of_spread atBefore stored spread).1.links
    refine ⟨links, dependencies, fun dependency member => ?_⟩
    obtain ⟨holder, _, isNew, -, -, isParent, -⟩ := (linked dependency).mp member
    exact ⟨holder, isNew, isParent⟩

end Obtains

/-- Afterwards the two are linked. -/
theorem Tied.exists_link (tied : Tied dependency before after) :
    ∃ link ∈ after.dependencies,
      link.parent = dependency.parent ∧ link.child = dependency.child := by
  rcases tied with added | ⟨known, rfl⟩
  · obtain ⟨-, -, -, rfl⟩ := createDependency_eq_ok_iff.mp added
    exact ⟨dependency, List.mem_append_right _ (.head _), rfl, rfl⟩
  · obtain ⟨found, isFound⟩ := Option.isSome_iff_exists.mp known
    have suits := List.find?_some isFound
    exact ⟨found, List.mem_of_find?_eq_some isFound, (found.links_iff _ _).mp suits⟩

/-- The entries of these parents with the same grant on the object are obtained in turn, and each is
linked to its parent. -/
inductive Passed (registry : Registry) (graph : ObjectGraph) (object : ObjectRef) :
    List Entry → List Entry → Store → Store → Prop
  | nothing {store : Store} : Passed registry graph object [] [] store store
  | next {parent entry : Entry} {parents created : List Entry}
      {before obtained tied after : Store} :
      entry.identity = parent.identity → entry.grant = ⟨object, parent.role⟩ →
      Obtains registry graph entry before obtained →
      Tied ⟨parent.id, entry.id, .detach⟩ obtained tied →
      Passed registry graph object parents created tied after →
      Passed registry graph object (parent :: parents) (entry :: created) before after

/-! ### In the meantime -/

/-- What is known of the store since some entries were passed on: the new entries are attended to,
and the new dependencies are theirs or lead from the parents to what was passed on. -/
structure Grafted (registry : Registry) (graph : ObjectGraph) (origin : Store)
    (bonds : List (Entry × Entry)) (store : Store) : Prop where
  intact : store.Intact
  kept : ∀ entry, origin.Holds entry → store.Holds entry
  attended : ∀ entry, IsNew origin store entry →
    Attended (entry.grant.offers registry graph) entry store
  links : ∃ links, store.dependencies = origin.dependencies ++ links ∧ ∀ dependency ∈ links,
    (∃ bond ∈ bonds, dependency = ⟨bond.1.id, bond.2.id, .detach⟩) ∨
      ∃ holder, IsNew origin store holder ∧ dependency.parent = holder.id
  bonded : ∀ bond ∈ bonds, origin.Holds bond.1 ∧
    ∃ link ∈ store.dependencies, link.parent = bond.1.id ∧ link.child = bond.2.id

namespace Grafted

theorem start (intact : origin.Intact) : Grafted registry graph origin [] origin where
  intact := intact
  kept _ := id
  attended _ isNew := absurd isNew.held isNew.fresh
  links := ⟨[], (List.append_nil _).symm, fun _ never => nomatch never⟩
  bonded _ never := nomatch never

theorem obtained (grafted : Grafted registry graph origin bonds before)
    (obtains : Obtains registry graph entry before after) :
    Grafted registry graph origin bonds after := by
  have kept {other : Entry} : before.Holds other → after.Holds other :=
    obtains.kept grafted.intact
  obtain ⟨links, dependencies, areLinks⟩ := grafted.links
  obtain ⟨more, dependenciesAfter, areMore⟩ := obtains.links grafted.intact
  refine ⟨obtains.intact grafted.intact, fun other holds => kept (grafted.kept other holds),
    fun other isNew => ?_, ⟨links ++ more, ?_, fun dependency member => ?_⟩, fun bond member => ?_⟩
  · by_cases held : before.Holds other
    · exact obtains.attendedBefore grafted.intact held (grafted.attended other ⟨held, isNew.fresh⟩)
    · exact obtains.attended grafted.intact ⟨isNew.held, held⟩
  · rw [dependenciesAfter, dependencies, List.append_assoc]
  · rcases List.mem_append.mp member with earlier | isMore
    · refine (areLinks dependency earlier).imp_right ?_
      exact fun ⟨holder, isNew, isParent⟩ => ⟨holder, ⟨kept isNew.held, isNew.fresh⟩, isParent⟩
    · obtain ⟨holder, isNew, isParent⟩ := areMore dependency isMore
      have fresh : ¬ origin.Holds holder := fun held => isNew.fresh (grafted.kept holder held)
      exact .inr ⟨holder, ⟨isNew.held, fresh⟩, isParent⟩
  · obtain ⟨held, link, linked, ends⟩ := grafted.bonded bond member
    exact ⟨held, link, dependenciesAfter ▸ List.mem_append_left _ linked, ends⟩

theorem tied (grafted : Grafted registry graph origin bonds before) (held : origin.Holds parent)
    (tied : Tied ⟨parent.id, entry.id, .detach⟩ before after) :
    Grafted registry graph origin (bonds ++ [(parent, entry)]) after := by
  obtain ⟨links, dependencies, areLinks⟩ := grafted.links
  have still (dependency : Dependency) (member : dependency ∈ links) :
      (∃ bond ∈ bonds ++ [(parent, entry)], dependency = ⟨bond.1.id, bond.2.id, .detach⟩) ∨
        ∃ holder, IsNew origin after holder ∧ dependency.parent = holder.id :=
    (areLinks dependency member).imp
      (fun ⟨bond, listed, same⟩ => ⟨bond, List.mem_append_left _ listed, same⟩)
      fun ⟨holder, isNew, isParent⟩ =>
        ⟨holder, ⟨tied.holds_iff.mpr isNew.held, isNew.fresh⟩, isParent⟩
  refine ⟨tied.intact grafted.intact,
    fun other holds => tied.holds_iff.mpr (grafted.kept other holds), fun other isNew => ?_, ?_,
    fun bond member => ?_⟩
  · have isNewBefore : IsNew origin before other := ⟨tied.holds_iff.mp isNew.held, isNew.fresh⟩
    refine (grafted.attended other isNewBefore).beside (fun same => isNew.fresh ?_) tied
    exact (grafted.kept parent held).eq_of_id isNewBefore.held same ▸ held
  · rcases tied.dependencies with added | same
    · refine ⟨links ++ [⟨parent.id, entry.id, .detach⟩], ?_, fun dependency member => ?_⟩
      · rw [added, dependencies, List.append_assoc]
      · rcases List.mem_append.mp member with earlier | isLast
        · exact still dependency earlier
        · exact .inl ⟨_, List.mem_append_right _ (.head _), List.mem_singleton.mp isLast⟩
    · exact ⟨links, same.trans dependencies, still⟩
  · rcases List.mem_append.mp member with earlier | isLast
    · obtain ⟨heldBond, link, linked, ends⟩ := grafted.bonded bond earlier
      exact ⟨heldBond, link, tied.subset linked, ends⟩
    · obtain rfl := List.mem_singleton.mp isLast
      exact ⟨held, tied.exists_link⟩

/-- A new dependency of an earlier entry can be detached. -/
theorem eq_detach (grafted : Grafted registry graph origin bonds after)
    (held : origin.Holds parent) (member : dependency ∈ after.dependencies)
    (isNew : dependency ∉ origin.dependencies) (isParent : dependency.parent = parent.id) :
    dependency = ⟨parent.id, dependency.child, .detach⟩ := by
  obtain ⟨links, dependencies, areLinks⟩ := grafted.links
  rw [dependencies] at member
  rcases areLinks dependency ((List.mem_append.mp member).resolve_left isNew) with
    ⟨bond, -, rfl⟩ | ⟨holder, holderIsNew, fromHolder⟩
  · rw [← isParent]
  · have same := (grafted.kept parent held).eq_of_id holderIsNew.held
      (isParent.symm.trans fromHolder)
    exact absurd (same ▸ held) holderIsNew.fresh

end Grafted

namespace Passed

/-- **The turns of all parents**, one after another. -/
theorem grafted (passed : Passed registry graph object parents created before after)
    (soFar : Grafted registry graph origin bonds before)
    (held : ∀ parent ∈ parents, origin.Holds parent) :
    Grafted registry graph origin (bonds ++ parents.zip created) after := by
  induction passed generalizing bonds with
  | nothing => exact (List.append_nil bonds).symm ▸ soFar
  | @next parent entry parents created _ _ _ _ _ _ obtains tied _ ih =>
    have later := ih ((soFar.obtained obtains).tied (held parent (.head _)) tied)
      fun other member => held other (.tail _ member)
    rwa [List.append_assoc] at later

theorem intact (passed : Passed registry graph object parents created before after)
    (intact : before.Intact) : after.Intact := by
  induction passed with
  | nothing => exact intact
  | next _ _ obtains tied _ ih => exact ih (tied.intact (obtains.intact intact))

theorem kept (passed : Passed registry graph object parents created before after)
    (intact : before.Intact) (holds : before.Holds other) : after.Holds other := by
  induction passed with
  | nothing => exact holds
  | next _ _ obtains tied _ ih =>
    exact ih (tied.intact (obtains.intact intact)) (tied.holds_iff.mpr (obtains.kept intact holds))

/-- What was passed on grants the same, in the order of the parents. -/
theorem children (passed : Passed registry graph object parents created before after)
    (intact : before.Intact) : List.Forall₂ (fun parent child => after.Holds child ∧
      child.identity = parent.identity ∧ child.grant = ⟨object, parent.role⟩) parents created := by
  induction passed with
  | nothing => exact .nil
  | next sameIdentity sameGrant obtains tied rest ih =>
    have atTied := tied.intact (obtains.intact intact)
    have held := rest.kept atTied (tied.holds_iff.mpr (obtains.held intact))
    exact .cons ⟨held, sameIdentity, sameGrant⟩ (ih atTied)

/-- **Whatever is new ensues** from something new that was passed on. -/
theorem ensues (passed : Passed registry graph object parents created before after)
    (intact : before.Intact) (isNew : IsNew before after other) :
    ∃ child ∈ created, IsNew before after child ∧ other.identity = child.identity ∧
      Grant.Ensues registry graph before child.identity child.grant other.grant := by
  induction passed with
  | nothing => exact absurd isNew.held isNew.fresh
  | @next _ entry _ _ before obtained tied after _ _ obtains isTied rest ih =>
    have atTied := isTied.intact (obtains.intact intact)
    have keptTied (other : Entry) (holds : before.Holds other) : tied.Holds other :=
      isTied.holds_iff.mpr (obtains.kept intact holds)
    by_cases earlier : obtained.Holds other
    · obtain ⟨entryIsNew, sameIdentity, ensues⟩ := obtains.ensues intact ⟨earlier, isNew.fresh⟩
      have heldAfter := rest.kept atTied (isTied.holds_iff.mpr entryIsNew.held)
      exact ⟨entry, .head _, ⟨heldAfter, entryIsNew.fresh⟩, sameIdentity, ensues⟩
    · obtain ⟨child, listed, childIsNew, sameIdentity, ensues⟩ :=
        ih atTied ⟨isNew.held, fun holds => earlier (isTied.holds_iff.mp holds)⟩
      exact ⟨child, .tail _ listed,
        ⟨childIsNew.held, fun holds => childIsNew.fresh (keptTied child holds)⟩, sameIdentity,
        ensues.mono keptTied⟩

end Passed

/-! ### In the end -/

/-- **The grants of the parents were passed on to the object**, and nothing else has changed. -/
structure Endowed (registry : Registry) (graph : ObjectGraph) (object : ObjectRef)
    (parents created : List Entry) (before after : Store) : Prop where
  intact : after.Intact
  kept : ∀ entry, before.Holds entry → after.Holds entry
  /-- For each parent the one entry with the same grant on the object. The two are linked as they
  were before, or by a dependency that can be detached. -/
  children : List.Forall₂ (fun parent child =>
    (∀ other, (after.Holds other ∧ other.identity = parent.identity ∧
      other.grant = ⟨object, parent.role⟩) ↔ other = child) ∧
    after.findDependency? parent.id child.id =
      some ((before.findDependency? parent.id child.id).getD ⟨parent.id, child.id, .detach⟩))
    parents created
  /-- The new entries. -/
  entries : ∀ who grant,
    (∃ entry, IsNew before after entry ∧ entry.identity = who ∧ entry.grant = grant) ↔
      ∃ child ∈ created, IsNew before after child ∧ child.identity = who ∧
        Grant.Ensues registry graph before who child.grant grant
  /-- The new dependencies. -/
  links : ∃ links, after.dependencies = before.dependencies ++ links ∧
    ∀ dependency, dependency ∈ links ↔
      (∃ bond ∈ parents.zip created, before.findDependency? bond.1.id bond.2.id = none ∧
        dependency = ⟨bond.1.id, bond.2.id, .detach⟩) ∨
      ∃ holder child, IsNew before after holder ∧ after.Holds child ∧
        child.identity = holder.identity ∧ dependency.parent = holder.id ∧
        dependency.child = child.id ∧
        (holder.grant.offers registry graph).lookup child.grant = some dependency.kind

namespace Grafted

variable (grafted : Grafted registry graph before bonds after)
include grafted

/-- A parent and what was passed on are linked as before, or anew. -/
theorem findDependency?_eq {bond : Entry × Entry} (listed : bond ∈ bonds) :
    after.findDependency? bond.1.id bond.2.id =
      some ((before.findDependency? bond.1.id bond.2.id).getD ⟨bond.1.id, bond.2.id, .detach⟩) := by
  obtain ⟨links, dependencies, -⟩ := grafted.links
  cases earlier : before.findDependency? bond.1.id bond.2.id with
  | some found =>
    unfold findDependency? at earlier ⊢
    rw [dependencies, List.find?_append, earlier]
    rfl
  | none =>
    have unlinked := findDependency?_eq_none_iff.mp earlier
    obtain ⟨held, link, member, ends⟩ := grafted.bonded bond listed
    cases found : after.findDependency? bond.1.id bond.2.id with
    | none => exact absurd ends (findDependency?_eq_none_iff.mp found link member)
    | some other =>
      have suits := List.find?_some found
      obtain ⟨isParent, isChild⟩ := (other.links_iff _ _).mp suits
      have same := grafted.eq_detach held (List.mem_of_find?_eq_some found)
        (fun wasLinked => unlinked other wasLinked ⟨isParent, isChild⟩) isParent
      rw [isChild] at same
      exact congrArg some same

/-- **The new dependencies** are those of new entries and those that were missing between a parent
and what was passed on. -/
theorem mem_links (intact : before.Intact) {links : List Dependency}
    (dependencies : after.dependencies = before.dependencies ++ links)
    (dependency : Dependency) : dependency ∈ links ↔
      (∃ bond ∈ bonds, before.findDependency? bond.1.id bond.2.id = none ∧
        dependency = ⟨bond.1.id, bond.2.id, .detach⟩) ∨
      ∃ holder child, IsNew before after holder ∧ after.Holds child ∧
        child.identity = holder.identity ∧ dependency.parent = holder.id ∧
        dependency.child = child.id ∧
        (holder.grant.offers registry graph).lookup child.grant = some dependency.kind := by
  have isNew_iff : dependency ∈ links ↔
      dependency ∈ after.dependencies ∧ dependency ∉ before.dependencies := by
    have once := grafted.intact.linkedOnce
    rw [dependencies] at once ⊢
    have apart := (List.nodup_append.mp once.of_map).2.2
    rw [List.mem_append]
    exact ⟨fun member => ⟨.inr member, fun earlier => apart _ earlier _ member rfl⟩,
      fun ⟨member, isNew⟩ => member.resolve_left isNew⟩
  rw [isNew_iff]
  constructor
  · rintro ⟨member, isNew⟩
    obtain ⟨all, split, areLinks⟩ := grafted.links
    rw [split] at member
    rcases areLinks dependency ((List.mem_append.mp member).resolve_left isNew) with
      ⟨bond, listed, rfl⟩ | ⟨holder, holderIsNew, isParent⟩
    · refine .inl ⟨bond, listed, findDependency?_eq_none_iff.mpr fun link earlier ends => ?_, rfl⟩
      have wasLinked : link ∈ after.dependencies := split ▸ List.mem_append_left _ earlier
      have same := List.inj_on_of_nodup_map grafted.intact.linkedOnce wasLinked (split ▸ member)
        (Prod.ext ends.1 ends.2)
      exact isNew (same ▸ earlier)
    · obtain ⟨child, offered⟩ :=
        (grafted.attended holder holderIsNew).only dependency (split ▸ member) isParent
      exact .inr ⟨holder, child, holderIsNew, offered.childHeld, offered.identity, isParent,
        offered.isChild, offered.kind⟩
  · rintro (⟨bond, listed, absent, rfl⟩ |
      ⟨holder, child, holderIsNew, childHeld, sameIdentity, isParent, isChild, offered⟩)
    · have linked := grafted.findDependency?_eq listed
      rw [absent] at linked
      exact ⟨List.mem_of_find?_eq_some linked, fun earlier =>
        findDependency?_eq_none_iff.mp absent _ earlier ⟨rfl, rfl⟩⟩
    · exact ⟨(grafted.attended holder holderIsNew).mem_dependencies grafted.intact childHeld
        sameIdentity offered isParent isChild,
        fun earlier => intact.notFromNew grafted.kept holderIsNew earlier isParent⟩

end Grafted

/-- **Passing grants on leaves exactly what there should be.** -/
theorem endowed_of_passed (intact : before.Intact)
    (held : ∀ parent ∈ parents, before.Holds parent)
    (passed : Passed registry graph object parents created before after) :
    Endowed registry graph object parents created before after := by
  have grafted : Grafted registry graph before (parents.zip created) after :=
    passed.grafted (.start intact) held
  have children := passed.children intact
  obtain ⟨links, dependencies, -⟩ := grafted.links
  refine ⟨grafted.intact, grafted.kept, ?_, fun who grant => ⟨?_, ?_⟩, links, dependencies,
    grafted.mem_links intact dependencies⟩
  · obtain ⟨length, isChild⟩ := List.forall₂_iff_zip.mp children
    refine List.forall₂_iff_zip.mpr ⟨length, fun {parent child} listed => ⟨fun other => ?_, ?_⟩⟩
    · obtain ⟨childHeld, sameIdentity, sameGrant⟩ := isChild listed
      refine ⟨fun ⟨otherHeld, otherIdentity, otherGrant⟩ => ?_, ?_⟩
      · obtain ⟨sameObject, sameRole⟩ := Grant.mk.inj (otherGrant.trans sameGrant.symm)
        exact grafted.intact.once otherHeld childHeld (otherIdentity.trans sameIdentity.symm)
          sameObject sameRole
      · rintro rfl
        exact ⟨childHeld, sameIdentity, sameGrant⟩
    · exact grafted.findDependency?_eq listed
  · rintro ⟨entry, isNew, rfl, rfl⟩
    obtain ⟨child, listed, childIsNew, sameIdentity, ensues⟩ := passed.ensues intact isNew
    exact ⟨child, listed, childIsNew, sameIdentity.symm, sameIdentity ▸ ensues⟩
  · rintro ⟨child, -, childIsNew, rfl, ensues⟩
    exact exists_of_ensues grafted.attended childIsNew ensues

end Store

end BookingAccess
