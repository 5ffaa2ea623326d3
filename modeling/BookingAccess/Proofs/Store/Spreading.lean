/-
**What a grant leads to.**

A grant whose role propagates leads to grants on the children of its object, by the rules of the
object's class. A grant that is stored anew goes on to those, and each entry that it comes to is
linked to the one that it was granted for; an entry that is stored already is only linked.

* `Grant.Leads`: one step along a rule; `Passes`: a step from a grant that was not stored;
* `Grant.offers`: all the steps from a grant, in the order in which they are taken;
* `Tied`: two entries are linked, unless they are already; `Spread`: what the store goes through
  while a grant is propagated;
* `Spread.isNew`, `Spread.links`: the entries and the dependencies that this adds.
-/

import BookingAccess.ObjectGraph
import BookingAccess.Proofs.Store.Pruning
import BookingAccess.Proofs.Store.Reach

namespace BookingAccess

/-- A role on an object, whoever has it. -/
structure Grant where
  object : ObjectRef
  role : Role
deriving DecidableEq

def Entry.grant (entry : Entry) : Grant := ⟨entry.object, entry.role⟩

/-- A rule of the class of the parent's object gives the role of the child on its object. -/
structure Grant.Leads (registry : Registry) (graph : ObjectGraph) (kind : DependencyKind)
    (parent child : Grant) : Prop where
  propagates : registry.isPropagatable parent.object.objectClass parent.role = true
  rule : ∃ rule ∈ registry.rules parent.object.objectClass,
    registry.childGrant? rule parent.role = some (child.role, kind) ∧
      child.object ∈ graph.children parent.object rule.relation ∧
      child.object.objectClass = rule.childClass

/-- A rule only leads to roles that the class of the child's object has. -/
theorem Grant.Leads.allows {registry : Registry} {graph : ObjectGraph} {kind : DependencyKind}
    {parent child : Grant} (leads : parent.Leads registry graph kind child) :
    registry.allows child.object.objectClass child.role = true := by
  obtain ⟨rule, -, given, -, sameClass⟩ := leads.rule
  obtain ⟨childType, found, given⟩ := Option.bind_eq_some_iff.mp given
  unfold Registry.allows
  rw [sameClass, found]
  exact PropagationRule.allowed_of_childGrant? given

/-- What a rule makes of a grant, child by child, if the role propagates. -/
def PropagationRule.offers (registry : Registry) (graph : ObjectGraph) (parent : Grant)
    (rule : PropagationRule) : List (Grant × DependencyKind) :=
  if registry.isPropagatable parent.object.objectClass parent.role then
    match registry.childGrant? rule parent.role with
    | none => []
    | some (role, kind) =>
      ((graph.children parent.object rule.relation).filter (·.objectClass == rule.childClass)).map
        fun child => (⟨child, role⟩, kind)
  else []

/-- The grants that a grant leads to and the kinds of dependency, in the order of the rules. -/
def Grant.offers (registry : Registry) (graph : ObjectGraph) (parent : Grant) :
    List (Grant × DependencyKind) :=
  (registry.rules parent.object.objectClass).flatMap (·.offers registry graph parent)

theorem Grant.mem_offers {registry : Registry} {graph : ObjectGraph} {kind : DependencyKind}
    {parent child : Grant} : (child, kind) ∈ parent.offers registry graph ↔
      parent.Leads registry graph kind child := by
  unfold Grant.offers
  rw [List.mem_flatMap]
  constructor
  · rintro ⟨rule, member, offered⟩
    unfold PropagationRule.offers at offered
    split at offered
    · rename_i propagates
      split at offered
      · exact nomatch offered
      · rename_i role given found
        obtain ⟨object, listed, same⟩ := List.mem_map.mp offered
        obtain ⟨rfl, rfl⟩ := Prod.mk.inj same
        obtain ⟨isChild, sameClass⟩ := List.mem_filter.mp listed
        exact ⟨propagates, rule, member, found, isChild, beq_iff_eq.mp sameClass⟩
    · exact nomatch offered
  · rintro ⟨propagates, rule, member, given, isChild, sameClass⟩
    refine ⟨rule, member, ?_⟩
    unfold PropagationRule.offers
    rw [if_pos propagates, given]
    exact List.mem_map.mpr ⟨child.object,
      List.mem_filter.mpr ⟨isChild, beq_iff_eq.mpr sameClass⟩, rfl⟩

namespace Store

open Relation

variable {registry : Registry} {graph : ObjectGraph} {kind : DependencyKind}
  {offers more : List (Grant × DependencyKind)}
  {origin before middle after : Store} {root parent child entry : Entry} {id : EntryId}

/-- The identity does not have the grant. -/
def Unstored (store : Store) (identity : Identity) (grant : Grant) : Prop :=
  ∀ entry, store.Holds entry → entry.identity = identity → entry.grant ≠ grant

theorem unstored_of_createEntry (numbered : before.Numbered)
    (kept : ∀ entry, origin.Holds entry → before.Holds entry)
    (result : before.createEntry entry.identity entry.object entry.role = .ok (child, after)) :
    origin.Unstored entry.identity entry.grant := by
  intro other holds sameIdentity sameGrant
  have absent := numbered.find?_eq_none_iff.mp (createEntry_eq_ok_iff.mp result).1
  obtain ⟨sameObject, sameRole⟩ := Grant.mk.inj sameGrant
  exact absent other (kept other holds) ⟨sameIdentity, sameObject, sameRole⟩

/-- Propagation goes from the one grant to the other, as the first one was not stored before. -/
def Passes (registry : Registry) (graph : ObjectGraph) (origin : Store) (identity : Identity)
    (parent child : Grant) : Prop :=
  origin.Unstored identity parent ∧ ∃ kind, parent.Leads registry graph kind child

theorem dependencies_createEntry {identity : Identity} {object : ObjectRef} {role : Role}
    (result : before.createEntry identity object role = .ok (entry, after)) :
    after.dependencies = before.dependencies := by
  obtain ⟨-, -, rfl⟩ := createEntry_eq_ok_iff.mp result
  rfl

theorem HasParent.mono (hasParent : before.HasParent id)
    (more : before.dependencies ⊆ after.dependencies) : after.HasParent id := by
  obtain ⟨dependency, member, isChild⟩ := hasParent
  exact ⟨dependency, more member, isChild⟩

/-- The dependency was added, or there is one between its ends. -/
def Tied (dependency : Dependency) (before after : Store) : Prop :=
  before.createDependency dependency = .ok after ∨
    (before.findDependency? dependency.parent dependency.child).isSome = true ∧ after = before

namespace Tied

variable {dependency : Dependency} (tied : Tied dependency before after)
include tied

theorem dependencies : after.dependencies = before.dependencies ++ [dependency] ∨
    after.dependencies = before.dependencies := by
  rcases tied with result | ⟨-, rfl⟩
  · obtain ⟨-, -, -, rfl⟩ := createDependency_eq_ok_iff.mp result
    exact .inl rfl
  · exact .inr rfl

theorem subset : before.dependencies ⊆ after.dependencies := by
  rcases tied.dependencies with added | same
  · rw [added]
    exact List.subset_append_left _ _
  · rw [same]
    exact List.Subset.refl _

theorem lastId : after.lastId = before.lastId := by
  rcases tied with result | ⟨-, rfl⟩
  · obtain ⟨-, -, -, rfl⟩ := createDependency_eq_ok_iff.mp result
    rfl
  · rfl

theorem holds_iff : after.Holds entry ↔ before.Holds entry := by
  rcases tied with result | ⟨-, rfl⟩
  · obtain ⟨-, -, -, rfl⟩ := createDependency_eq_ok_iff.mp result
    exact Iff.rfl
  · exact Iff.rfl

theorem intact (intact : before.Intact) : after.Intact := by
  rcases tied with result | ⟨-, rfl⟩
  · exact intact.createDependency result
  · exact intact

theorem hasParent : after.HasParent dependency.child := by
  rcases tied with result | ⟨known, rfl⟩
  · obtain ⟨-, -, -, rfl⟩ := createDependency_eq_ok_iff.mp result
    exact ⟨dependency, List.mem_append_right _ (.head _), rfl⟩
  · obtain ⟨found, isFound⟩ := Option.isSome_iff_exists.mp known
    have suits := List.find?_some isFound
    exact ⟨found, List.mem_of_find?_eq_some isFound, ((found.links_iff _ _).mp suits).2⟩

end Tied

/-- What the store goes through while these steps are taken from an entry: entries that are stored
already are linked to it, and new ones are stored, propagated themselves and linked. -/
inductive Spread (registry : Registry) (graph : ObjectGraph) :
    Entry → List (Grant × DependencyKind) → Store → Store → Prop
  | nothing {parent : Entry} {store : Store} : Spread registry graph parent [] store store
  | linked {parent child : Entry} {offers : List (Grant × DependencyKind)} {kind : DependencyKind}
      {before middle after : Store} :
      Spread registry graph parent offers before middle → middle.Holds child →
      child.identity = parent.identity → parent.grant.Leads registry graph kind child.grant →
      Tied ⟨parent.id, child.id, kind⟩ middle after →
      Spread registry graph parent (offers ++ [(child.grant, kind)]) before after
  | granted {parent child : Entry} {offers : List (Grant × DependencyKind)}
      {kind : DependencyKind} {before middle extended grown after : Store} :
      Spread registry graph parent offers before middle →
      middle.createEntry parent.identity child.object child.role = .ok (child, extended) →
      parent.grant.Leads registry graph kind child.grant →
      Spread registry graph child (child.grant.offers registry graph) extended grown →
      Tied ⟨parent.id, child.id, kind⟩ grown after →
      Spread registry graph parent (offers ++ [(child.grant, kind)]) before after

namespace Spread

protected theorem trans (first : Spread registry graph parent offers before middle)
    (second : Spread registry graph parent more middle after) :
    Spread registry graph parent (offers ++ more) before after := by
  induction second with
  | nothing => exact offers.append_nil.symm ▸ first
  | linked _ holds same leads tied ih =>
    exact List.append_assoc .. ▸ .linked (ih first) holds same leads tied
  | granted _ stored leads below tied ih _ =>
    exact List.append_assoc .. ▸ .granted (ih first) stored leads below tied

/-! ### What is kept -/

theorem lastId_le (spread : Spread registry graph parent offers before after) :
    before.lastId ≤ after.lastId := by
  induction spread with
  | nothing => exact Nat.le_refl _
  | linked _ _ _ _ tied ih => exact tied.lastId ▸ ih
  | granted _ stored _ _ tied ih ihBelow =>
    obtain ⟨-, -, rfl⟩ := createEntry_eq_ok_iff.mp stored
    exact tied.lastId ▸ Nat.le_trans (Nat.le_succ_of_le ih) ihBelow

theorem intact (spread : Spread registry graph parent offers before after)
    (intact : before.Intact) : after.Intact := by
  induction spread with
  | nothing => exact intact
  | linked _ _ _ _ tied ih => exact tied.intact (ih intact)
  | granted _ stored _ _ tied ih ihBelow =>
    exact tied.intact (ihBelow ((ih intact).createEntry stored))

theorem holds (spread : Spread registry graph parent offers before after) (intact : before.Intact)
    (holds : before.Holds entry) : after.Holds entry := by
  induction spread with
  | nothing => exact holds
  | linked _ _ _ _ tied ih => exact tied.holds_iff.mpr (ih intact holds)
  | granted soFar stored _ _ tied ih ihBelow =>
    have atMiddle := soFar.intact intact
    refine tied.holds_iff.mpr (ihBelow (atMiddle.createEntry stored) ?_)
    exact (atMiddle.numbered.holds_createEntry stored).mpr (.inr (ih intact holds))

theorem dependencies (spread : Spread registry graph parent offers before after) :
    before.dependencies ⊆ after.dependencies := by
  induction spread with
  | nothing => exact List.Subset.refl _
  | linked _ _ _ _ tied ih => exact List.Subset.trans ih tied.subset
  | granted _ stored _ _ tied ih ihBelow =>
    rw [dependencies_createEntry stored] at ihBelow
    exact List.Subset.trans (List.Subset.trans ih ihBelow) tied.subset

end Spread

/-! ### What is added -/

/-- The entry was not stored, and propagation has come to it from the root. -/
structure Sprung (registry : Registry) (graph : ObjectGraph) (origin : Store)
    (root entry : Entry) : Prop where
  identity : entry.identity = root.identity
  unstored : origin.Unstored root.identity entry.grant
  reached : ReflTransGen (Passes registry graph origin root.identity) root.grant entry.grant

namespace Sprung

theorem passes (sprung : Sprung registry graph origin root parent)
    (leads : parent.grant.Leads registry graph kind child.grant) :
    Passes registry graph origin root.identity parent.grant child.grant :=
  ⟨sprung.unstored, kind, leads⟩

/-- The next entry, which is stored where nobody had its grant before. -/
theorem next (sprung : Sprung registry graph origin root parent) (numbered : before.Numbered)
    (kept : ∀ entry, origin.Holds entry → before.Holds entry)
    (leads : parent.grant.Leads registry graph kind child.grant)
    (result : before.createEntry parent.identity child.object child.role = .ok (child, after)) :
    Sprung registry graph origin root child := by
  have same : child.identity = root.identity := by
    obtain ⟨-, isNew, -⟩ := createEntry_eq_ok_iff.mp result
    rw [isNew, sprung.identity]
  refine ⟨same, ?_, sprung.reached.tail (sprung.passes leads)⟩
  rw [sprung.identity, ← same] at result
  exact same ▸ unstored_of_createEntry numbered kept result

end Sprung

theorem Links.mono {dependency : Dependency} (links : before.Links dependency parent child)
    (holds : ∀ entry, before.Holds entry → after.Holds entry)
    (dependencies : before.dependencies ⊆ after.dependencies) :
    after.Links dependency parent child :=
  ⟨holds _ links.parentHeld, holds _ links.childHeld, dependencies links.member, links.isParent,
    links.isChild⟩

/-- What is known of a dependency that propagation adds. -/
def IsLink (registry : Registry) (graph : ObjectGraph) (origin : Store) (root : Entry)
    (store : Store) (dependency : Dependency) : Prop :=
  ∃ holder child, store.Links dependency holder child ∧
    Sprung registry graph origin root holder ∧ child.identity = root.identity ∧
    Passes registry graph origin root.identity holder.grant child.grant

theorem IsLink.mono {dependency : Dependency}
    (isLink : IsLink registry graph origin root before dependency)
    (holds : ∀ entry, before.Holds entry → after.Holds entry)
    (dependencies : before.dependencies ⊆ after.dependencies) :
    IsLink registry graph origin root after dependency := by
  obtain ⟨holder, child, links, known⟩ := isLink
  exact ⟨holder, child, links.mono holds dependencies, known⟩

/-- One more link, if it was not there. -/
theorem Tied.links (links : List Dependency)
    (tied : Tied ⟨parent.id, child.id, kind⟩ middle after)
    (dependencies : middle.dependencies = before.dependencies ++ links)
    (areLinks : ∀ dependency ∈ links, IsLink registry graph origin root middle dependency)
    (parentHeld : middle.Holds parent) (childHeld : middle.Holds child)
    (sprung : Sprung registry graph origin root parent)
    (sameIdentity : child.identity = root.identity)
    (leads : parent.grant.Leads registry graph kind child.grant) :
    ∃ links, after.dependencies = before.dependencies ++ links ∧
      ∀ dependency ∈ links, IsLink registry graph origin root after dependency := by
  have still (dependency : Dependency) (member : dependency ∈ links) :
      IsLink registry graph origin root after dependency :=
    (areLinks dependency member).mono (fun _ => tied.holds_iff.mpr) tied.subset
  rcases tied.dependencies with added | same
  · refine ⟨links ++ [⟨parent.id, child.id, kind⟩], ?_, fun dependency member => ?_⟩
    · rw [added, dependencies, List.append_assoc]
    · rcases List.mem_append.mp member with earlier | isLast
      · exact still dependency earlier
      · obtain rfl := List.mem_singleton.mp isLast
        refine ⟨parent, child, ⟨tied.holds_iff.mpr parentHeld, tied.holds_iff.mpr childHeld, ?_,
          rfl, rfl⟩, sprung, sameIdentity, sprung.passes leads⟩
        rw [added]
        exact List.mem_append_right _ (.head _)
  · exact ⟨links, same.trans dependencies, still⟩

namespace Spread

/-- **The entries that propagation adds** have new numbers, and each has a parent. -/
theorem isNew (spread : Spread registry graph parent offers before after) (intact : before.Intact)
    (kept : ∀ entry, origin.Holds entry → before.Holds entry)
    (sprung : Sprung registry graph origin root parent) (holds : after.Holds entry) :
    before.Holds entry ∨ before.lastId < entry.id ∧ after.HasParent entry.id ∧
      Sprung registry graph origin root entry := by
  induction spread with
  | nothing => exact .inl holds
  | linked _ _ _ _ tied ih =>
    exact (ih intact kept sprung (tied.holds_iff.mp holds)).imp_right
      fun ⟨later, hasParent, isSprung⟩ => ⟨later, hasParent.mono tied.subset, isSprung⟩
  | @granted parent child offers kind before middle extended grown after soFar stored leads below
      tied ih ihBelow =>
    have atMiddle := soFar.intact intact
    have held {other : Entry} : extended.Holds other ↔ other = child ∨ middle.Holds other :=
      atMiddle.numbered.holds_createEntry stored
    have keptMiddle (other : Entry) (holds : origin.Holds other) : middle.Holds other :=
      soFar.holds intact (kept other holds)
    have childSprung := sprung.next atMiddle.numbered keptMiddle leads stored
    have fromMiddle : middle.dependencies ⊆ grown.dependencies :=
      dependencies_createEntry stored ▸ below.dependencies
    have atLeast := soFar.lastId_le
    obtain ⟨-, isNew, same⟩ := createEntry_eq_ok_iff.mp stored
    rcases ihBelow (atMiddle.createEntry stored)
      (fun other holds => held.mpr (.inr (keptMiddle other holds))) childSprung
      (tied.holds_iff.mp holds) with earlier | ⟨later, hasParent, isSprung⟩
    · rcases held.mp earlier with rfl | earlier
      · -- The new child is linked once all that follows from it is done.
        refine .inr ⟨?_, tied.hasParent, childSprung⟩
        rw [isNew]
        exact Nat.lt_succ_of_le atLeast
      · exact (ih intact kept sprung earlier).imp_right fun ⟨later, hasParent, isSprung⟩ =>
          ⟨later, (hasParent.mono fromMiddle).mono tied.subset, isSprung⟩
    · refine .inr ⟨?_, hasParent.mono tied.subset, isSprung⟩
      rw [same] at later
      exact Nat.lt_of_le_of_lt atLeast (Nat.lt_of_succ_lt later)

/-- **The dependencies that propagation adds** lead from new entries along a rule. -/
theorem links (spread : Spread registry graph parent offers before after) (intact : before.Intact)
    (kept : ∀ entry, origin.Holds entry → before.Holds entry)
    (held : before.Holds parent) (sprung : Sprung registry graph origin root parent) :
    ∃ links, after.dependencies = before.dependencies ++ links ∧
      ∀ dependency ∈ links, IsLink registry graph origin root after dependency := by
  induction spread with
  | nothing => exact ⟨[], (List.append_nil _).symm, fun _ never => nomatch never⟩
  | linked soFar childHeld sameIdentity leads tied ih =>
    refine (ih intact kept held sprung).elim fun links ⟨dependencies, areLinks⟩ => ?_
    exact tied.links links dependencies areLinks (soFar.holds intact held) childHeld sprung
      (sameIdentity.trans sprung.identity) leads
  | @granted parent child offers kind before middle extended grown after soFar stored leads below
      tied ih ihBelow =>
    have atMiddle := soFar.intact intact
    have atExtended := atMiddle.createEntry stored
    have heldExtended {other : Entry} : extended.Holds other ↔ other = child ∨ middle.Holds other :=
      atMiddle.numbered.holds_createEntry stored
    have keptMiddle (other : Entry) (holds : origin.Holds other) : middle.Holds other :=
      soFar.holds intact (kept other holds)
    have childSprung := sprung.next atMiddle.numbered keptMiddle leads stored
    have toGrown (other : Entry) (holds : middle.Holds other) : grown.Holds other :=
      below.holds atExtended (heldExtended.mpr (.inr holds))
    obtain ⟨links, dependencies, areLinks⟩ := ih intact kept held sprung
    obtain ⟨more, dependenciesBelow, areLinksBelow⟩ := ihBelow atExtended
      (fun other holds => heldExtended.mpr (.inr (keptMiddle other holds)))
      (heldExtended.mpr (.inl rfl)) childSprung
    refine tied.links (links ++ more) ?_ (fun dependency member => ?_)
      (toGrown parent (soFar.holds intact held))
      (below.holds atExtended (heldExtended.mpr (.inl rfl))) sprung childSprung.identity leads
    · rw [dependenciesBelow, dependencies_createEntry stored, dependencies, List.append_assoc]
    · rcases List.mem_append.mp member with first | second
      · refine (areLinks dependency first).mono toGrown ?_
        exact dependencies_createEntry stored ▸ below.dependencies
      · exact areLinksBelow dependency second

end Spread

end BookingAccess.Store
