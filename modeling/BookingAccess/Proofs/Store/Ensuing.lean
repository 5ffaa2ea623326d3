/-
**What ensues from a grant.**

A grant that is stored ensues, and so does every grant that one which ensues leads to, unless it was
stored before. Propagation stores exactly the grants that ensue. It links each new entry to the
entries of all the grants that it leads to, by the first rule that does, and adds no other
dependency.

* `Attended`: an entry is linked to the entries of certain grants and to no others;
* `Spread.attended`: each entry that propagation adds is attended to;
* `Grant.Ensues`, `Ensued`: the grants that ensue, and the store after them; `ensued_of_spread`.
-/

import BookingAccess.Proofs.Store.Undoing

namespace BookingAccess

/-- **The grants that ensue from a grant to an identity.** What was stored before does not ensue,
and nothing ensues from it. -/
inductive Grant.Ensues (registry : Registry) (graph : ObjectGraph) (origin : Store)
    (identity : Identity) (root : Grant) : Grant → Prop
  | root : Ensues registry graph origin identity root root
  | next {parent child : Grant} {kind : DependencyKind} :
      Ensues registry graph origin identity root parent →
      parent.Leads registry graph kind child → origin.Unstored identity child →
      Ensues registry graph origin identity root child

namespace Store

open Relation

variable {registry : Registry} {graph : ObjectGraph} {kind : DependencyKind}
  {offers : List (Grant × DependencyKind)} {before middle extended after : Store}
  {root parent child entry : Entry} {dependency : Dependency} {identity : Identity}

/-! ### Where dependencies come from -/

theorem Tied.mem (tied : Tied dependency before after) {other : Dependency}
    (member : other ∈ after.dependencies) : other ∈ before.dependencies ∨ other = dependency := by
  rcases tied.dependencies with added | same
  · rw [added] at member
    exact (List.mem_append.mp member).imp_right List.mem_singleton.mp
  · exact .inl (same ▸ member)

/-- Propagation adds dependencies only from the entry that is propagated and from new ones. -/
theorem Spread.parents (spread : Spread registry graph parent offers before after)
    (member : dependency ∈ after.dependencies) :
    dependency ∈ before.dependencies ∨ dependency.parent = parent.id ∨
      before.lastId < dependency.parent := by
  induction spread with
  | nothing => exact .inl member
  | linked _ _ _ _ tied ih =>
    rcases tied.mem member with earlier | rfl
    · exact ih earlier
    · exact .inr (.inl rfl)
  | granted soFar stored _ _ tied ih ihBelow =>
    have atLeast := soFar.lastId_le
    obtain ⟨-, isNew, same⟩ := createEntry_eq_ok_iff.mp stored
    rcases tied.mem member with earlier | rfl
    · rcases ihBelow earlier with earlier | isChild | later
      · exact ih (dependencies_createEntry stored ▸ earlier)
      · rw [isChild, isNew]
        exact .inr (.inr (Nat.lt_succ_of_le atLeast))
      · rw [same] at later
        exact .inr (.inr (Nat.lt_of_le_of_lt atLeast (Nat.lt_of_succ_lt later)))
    · exact .inr (.inl rfl)

/-! ### The links of an entry -/

/-- A grant that is offered again is not listed with another kind. -/
theorem lookup_snoc {grant other : Grant} {given : DependencyKind} :
    (offers ++ [(grant, kind)]).lookup other = some given ↔
      offers.lookup other = some given ∨
        offers.lookup other = none ∧ other = grant ∧ kind = given := by
  rw [List.lookup_append]
  cases offers.lookup other with
  | some first => simp
  | none =>
    by_cases same : other = grant
    · simp [same]
    · simp [List.lookup_cons, same, beq_eq_false_iff_ne.mpr same]

/-- The child has one of these grants, and the dependency is of the kind that is listed first. -/
structure Offered (offers : List (Grant × DependencyKind)) (store : Store)
    (dependency : Dependency) (parent child : Entry) : Prop
    extends store.Links dependency parent child where
  identity : child.identity = parent.identity
  kind : offers.lookup child.grant = some dependency.kind

/-- The entry is linked to an entry of each of these grants, and to no other entry. -/
structure Attended (offers : List (Grant × DependencyKind)) (entry : Entry) (store : Store) :
    Prop where
  linked : ∀ {grant kind}, offers.lookup grant = some kind →
    ∃ dependency child, Offered offers store dependency entry child ∧ child.grant = grant
  only : ∀ dependency ∈ store.dependencies, dependency.parent = entry.id →
    ∃ child, Offered offers store dependency entry child

namespace Attended

theorem mono (attended : Attended offers entry before)
    (holds : ∀ entry, before.Holds entry → after.Holds entry)
    (dependencies : before.dependencies ⊆ after.dependencies)
    (noMore : ∀ dependency ∈ after.dependencies, dependency.parent = entry.id →
      dependency ∈ before.dependencies) : Attended offers entry after := by
  have still {dependency : Dependency} {child : Entry}
      (offered : Offered offers before dependency entry child) :
      Offered offers after dependency entry child :=
    { offered with toLinks := offered.toLinks.mono holds dependencies }
  refine ⟨fun listed => ?_, fun dependency member isParent => ?_⟩
  · obtain ⟨dependency, child, offered, same⟩ := attended.linked listed
    exact ⟨dependency, child, still offered, same⟩
  · obtain ⟨child, offered⟩ := attended.only dependency (noMore dependency member isParent) isParent
    exact ⟨child, still offered⟩

/-- While a new entry is stored and propagated, an earlier one is left alone. -/
theorem granted (attended : Attended offers entry middle) (intact : middle.Intact)
    (held : middle.Holds entry)
    (stored : middle.createEntry parent.identity child.object child.role = .ok (child, extended))
    {below : List (Grant × DependencyKind)} {grown : Store}
    (spread : Spread registry graph child below extended grown) : Attended offers entry grown := by
  refine attended.mono (fun other holds => ?_) ?_ fun dependency member isParent => ?_
  · refine spread.holds (intact.createEntry stored) ?_
    exact (intact.numbered.holds_createEntry stored).mpr (.inr holds)
  · exact dependencies_createEntry stored ▸ spread.dependencies
  · have given : entry.id ≤ middle.lastId := (intact.numbered _ _ held).2
    obtain ⟨-, isNew, same⟩ := createEntry_eq_ok_iff.mp stored
    rcases spread.parents member with earlier | isChild | later
    · exact dependencies_createEntry stored ▸ earlier
    · rw [← isParent, isChild, isNew] at given
      exact absurd given (Nat.not_succ_le_self _)
    · rw [isParent, same] at later
      exact absurd given (Nat.not_le_of_lt (Nat.lt_of_succ_lt later))

/-- A link from another entry. -/
theorem beside (attended : Attended offers entry middle) (different : parent.id ≠ entry.id)
    (tied : Tied ⟨parent.id, child.id, kind⟩ middle after) : Attended offers entry after := by
  refine attended.mono (fun _ => tied.holds_iff.mpr) tied.subset
    fun dependency member isParent => ?_
  refine (tied.mem member).resolve_right ?_
  rintro rfl
  exact different isParent

/-- A grant that was not offered before is linked. -/
theorem extend (attended : Attended offers entry middle) (held : middle.Holds entry)
    (childHeld : middle.Holds child) (sameIdentity : child.identity = entry.identity)
    (fresh : offers.lookup child.grant = none)
    (added : middle.createDependency ⟨entry.id, child.id, kind⟩ = .ok after) :
    Attended (offers ++ [(child.grant, kind)]) entry after := by
  have tied : Tied ⟨entry.id, child.id, kind⟩ middle after := .inl added
  have dependencies : after.dependencies = middle.dependencies ++ [⟨entry.id, child.id, kind⟩] := by
    obtain ⟨-, -, -, rfl⟩ := createDependency_eq_ok_iff.mp added
    rfl
  have still {dependency : Dependency} {other : Entry}
      (offered : Offered offers middle dependency entry other) :
      Offered (offers ++ [(child.grant, kind)]) after dependency entry other :=
    ⟨offered.toLinks.mono (fun _ => tied.holds_iff.mpr) tied.subset, offered.identity,
      lookup_snoc.mpr (.inl offered.kind)⟩
  have isOffered : Offered (offers ++ [(child.grant, kind)]) after ⟨entry.id, child.id, kind⟩ entry
      child :=
    ⟨⟨tied.holds_iff.mpr held, tied.holds_iff.mpr childHeld,
      dependencies ▸ List.mem_append_right _ (.head _), rfl, rfl⟩, sameIdentity,
      lookup_snoc.mpr (.inr ⟨fresh, rfl, rfl⟩)⟩
  refine ⟨fun listed => ?_, fun dependency member isParent => ?_⟩
  · rcases lookup_snoc.mp listed with earlier | ⟨-, rfl, rfl⟩
    · obtain ⟨dependency, other, offered, sameGrant⟩ := attended.linked earlier
      exact ⟨dependency, other, still offered, sameGrant⟩
    · exact ⟨_, child, isOffered, rfl⟩
  · rcases tied.mem member with earlier | rfl
    · exact (attended.only dependency earlier isParent).imp fun _ => still
    · exact ⟨child, isOffered⟩

/-- A grant that was offered before is linked already. -/
theorem repeated (attended : Attended offers entry middle) {grant : Grant} {first : DependencyKind}
    (listed : offers.lookup grant = some first) :
    Attended (offers ++ [(grant, kind)]) entry middle := by
  have same (other : Grant) (given : DependencyKind) :
      (offers ++ [(grant, kind)]).lookup other = some given ↔ offers.lookup other = some given := by
    refine lookup_snoc.trans (or_iff_left ?_)
    rintro ⟨absent, rfl, -⟩
    exact nomatch absent.symm.trans listed
  have still {dependency : Dependency} {other : Entry}
      (offered : Offered offers middle dependency entry other) :
      Offered (offers ++ [(grant, kind)]) middle dependency entry other :=
    { offered with kind := (same _ _).mpr offered.kind }
  refine ⟨fun earlier => ?_, fun dependency member isParent => ?_⟩
  · obtain ⟨dependency, other, offered, sameGrant⟩ := attended.linked ((same _ _).mp earlier)
    exact ⟨dependency, other, still offered, sameGrant⟩
  · exact (attended.only dependency member isParent).imp fun _ => still

/-- What is offered is linked by the dependency of the kind that is listed first. -/
theorem mem_dependencies (attended : Attended offers entry before) (intact : before.Intact)
    (childHeld : before.Holds child) (sameIdentity : child.identity = entry.identity)
    (listed : offers.lookup child.grant = some dependency.kind)
    (isParent : dependency.parent = entry.id) (isChild : dependency.child = child.id) :
    dependency ∈ before.dependencies := by
  obtain ⟨link, other, offered, sameGrant⟩ := attended.linked listed
  obtain rfl : other = child := intact.once offered.childHeld childHeld
    (offered.identity.trans sameIdentity.symm) (Grant.mk.inj sameGrant).1 (Grant.mk.inj sameGrant).2
  obtain rfl : link = dependency := by
    have sameKind := Option.some.inj (offered.kind.symm.trans listed)
    obtain ⟨_, _, _⟩ := link
    obtain ⟨_, _, _⟩ := dependency
    exact Dependency.mk.injEq .. ▸ ⟨offered.isParent.trans isParent.symm,
      offered.isChild.trans isChild.symm, sameKind⟩
  exact offered.member

/-- **One step more**: whether there is a link tells whether the grant was offered before. -/
theorem tied (attended : Attended offers entry middle) (intact : middle.Intact)
    (held : middle.Holds entry) (childHeld : middle.Holds child)
    (sameIdentity : child.identity = entry.identity)
    (tied : Tied ⟨entry.id, child.id, kind⟩ middle after) :
    Attended (offers ++ [(child.grant, kind)]) entry after := by
  rcases tied with added | ⟨known, rfl⟩
  · refine attended.extend held childHeld sameIdentity ?_ added
    refine Option.eq_none_iff_forall_ne_some.mpr fun first found => ?_
    obtain ⟨dependency, other, offered, sameGrant⟩ := attended.linked found
    obtain rfl : other = child := intact.once offered.childHeld childHeld
      (offered.identity.trans sameIdentity.symm) (Grant.mk.inj sameGrant).1
      (Grant.mk.inj sameGrant).2
    exact findDependency?_eq_none_iff.mp (createDependency_eq_ok_iff.mp added).1 dependency
      offered.member ⟨offered.isParent, offered.isChild⟩
  · obtain ⟨found, isFound⟩ := Option.isSome_iff_exists.mp known
    have suits := List.find?_some isFound
    obtain ⟨isParent, isChild⟩ := (found.links_iff _ _).mp suits
    obtain ⟨other, offered⟩ := attended.only found (List.mem_of_find?_eq_some isFound) isParent
    obtain rfl := offered.childHeld.eq_of_id childHeld (offered.isChild.symm.trans isChild)
    exact attended.repeated offered.kind

end Attended

/-- A new entry has no dependencies yet. -/
theorem Intact.noLinks (intact : middle.Intact)
    (stored : middle.createEntry parent.identity child.object child.role = .ok (child, extended)) :
    ∀ dependency ∈ extended.dependencies, dependency.parent ≠ child.id := by
  intro dependency member isChild
  rw [dependencies_createEntry stored] at member
  obtain ⟨holder, found⟩ := Option.isSome_iff_exists.mp (intact.anchored dependency member).1
  rw [isChild, (createEntry_eq_ok_iff.mp stored).2.1, intact.numbered.get?_next] at found
  exact nomatch found

namespace Spread

/-- **The entry that is propagated is attended to.** -/
theorem attends (spread : Spread registry graph parent offers before after)
    (intact : before.Intact) (held : before.Holds parent)
    (noLinks : ∀ dependency ∈ before.dependencies, dependency.parent ≠ parent.id) :
    Attended offers parent after := by
  induction spread with
  | nothing =>
    exact ⟨fun never => (nomatch never),
      fun dependency member isParent => absurd isParent (noLinks dependency member)⟩
  | linked soFar childHeld sameIdentity _ tied ih =>
    exact (ih intact held noLinks).tied (soFar.intact intact) (soFar.holds intact held) childHeld
      sameIdentity tied
  | @granted parent child _ _ _ _ extended grown _ soFar stored _ below tied ih _ =>
    have atMiddle := soFar.intact intact
    have atExtended := atMiddle.createEntry stored
    have heldExtended {other : Entry} : extended.Holds other ↔ other = child ∨ _ :=
      atMiddle.numbered.holds_createEntry stored
    have parentHeld := soFar.holds intact held
    have sameIdentity : child.identity = parent.identity := by
      rw [(createEntry_eq_ok_iff.mp stored).2.1]
    exact ((ih intact held noLinks).granted atMiddle parentHeld stored below).tied
      (below.intact atExtended) (below.holds atExtended (heldExtended.mpr (.inr parentHeld)))
      (below.holds atExtended (heldExtended.mpr (.inl rfl))) sameIdentity tied

/-- **Every entry that propagation adds is attended to.** -/
theorem attended (spread : Spread registry graph parent offers before after)
    (intact : before.Intact) (held : before.Holds parent) (holds : after.Holds entry)
    (isNew : ¬ before.Holds entry) :
    Attended (entry.grant.offers registry graph) entry after := by
  induction spread with
  | nothing => exact absurd holds isNew
  | @linked parent child _ _ before middle after soFar _ _ _ tied ih =>
    have entryHeld := tied.holds_iff.mp holds
    refine (ih intact held entryHeld isNew).beside (fun same => ?_) tied
    exact isNew ((soFar.holds intact held).eq_of_id entryHeld same ▸ held)
  | @granted parent child _ _ before middle extended grown after soFar stored _ below tied ih
      ihBelow =>
    have atMiddle := soFar.intact intact
    have atExtended := atMiddle.createEntry stored
    have heldExtended {other : Entry} : extended.Holds other ↔ other = child ∨ middle.Holds other :=
      atMiddle.numbered.holds_createEntry stored
    have entryHeld := tied.holds_iff.mp holds
    have parentHeld : grown.Holds parent :=
      below.holds atExtended (heldExtended.mpr (.inr (soFar.holds intact held)))
    have different (same : parent.id = entry.id) : False :=
      isNew (parentHeld.eq_of_id entryHeld same ▸ held)
    refine Attended.beside ?_ different tied
    by_cases earlier : extended.Holds entry
    · rcases heldExtended.mp earlier with rfl | atMiddleHeld
      · exact below.attends atExtended earlier (atMiddle.noLinks stored)
      · exact (ih intact held atMiddleHeld isNew).granted atMiddle atMiddleHeld stored below
    · exact ihBelow atExtended (heldExtended.mpr (.inl rfl)) entryHeld earlier

end Spread

/-! ### What is added -/

/-- The store holds the entry now and did not before. -/
structure IsNew (before after : Store) (entry : Entry) : Prop where
  held : after.Holds entry
  fresh : ¬ before.Holds entry

/-- What propagation has come to ensues, unless it was stored before. -/
theorem ensues_of_reaches {root reached : Grant}
    (reaches : ReflTransGen (Passes registry graph before identity) root reached)
    (unstored : before.Unstored identity reached) :
    Grant.Ensues registry graph before identity root reached := by
  induction reaches with
  | refl => exact .root
  | tail _ passes ih =>
    obtain ⟨parentUnstored, _, leads⟩ := passes
    exact .next (ih parentUnstored) leads unstored

/-- As long as all new entries are attended to, every grant is stored that ensues from a new one. -/
theorem exists_of_ensues (attended : ∀ entry, IsNew before after entry →
      Attended (entry.grant.offers registry graph) entry after)
    (rootIsNew : IsNew before after root) {grant : Grant}
    (ensues : Grant.Ensues registry graph before root.identity root.grant grant) :
    ∃ entry, IsNew before after entry ∧ entry.identity = root.identity ∧ entry.grant = grant := by
  induction ensues with
  | root => exact ⟨root, rootIsNew, rfl, rfl⟩
  | @next parent child kind _ leads unstored ih =>
    obtain ⟨holder, isNew, sameIdentity, rfl⟩ := ih
    have listed : ((holder.grant.offers registry graph).lookup child).isSome = true :=
      List.lookup_isSome_iff.mpr ⟨_, Grant.mem_offers.mpr leads, beq_self_eq_true child⟩
    obtain ⟨first, listed⟩ := Option.isSome_iff_exists.mp listed
    obtain ⟨_, entry, offered, rfl⟩ := (attended holder isNew).linked listed
    have identity := offered.identity.trans sameIdentity
    exact ⟨entry, ⟨offered.childHeld, fun held => unstored entry held identity rfl⟩, identity, rfl⟩

/-- **A grant was stored with everything that ensues from it**, and nothing else has changed. -/
structure Ensued (registry : Registry) (graph : ObjectGraph) (identity : Identity) (root : Grant)
    (before after : Store) : Prop where
  intact : after.Intact
  kept : ∀ entry, before.Holds entry → after.Holds entry
  /-- The new entries. -/
  entries : ∀ who grant,
    (∃ entry, IsNew before after entry ∧ entry.identity = who ∧ entry.grant = grant) ↔
      who = identity ∧ Grant.Ensues registry graph before identity root grant
  /-- Whatever is offered to a new entry is stored, by now or from before. -/
  offered : ∀ parent grant kind, IsNew before after parent →
    (parent.grant.offers registry graph).lookup grant = some kind →
      ∃ child, after.Holds child ∧ child.identity = identity ∧ child.grant = grant
  /-- The new dependencies. -/
  links : ∃ links, after.dependencies = before.dependencies ++ links ∧
    ∀ dependency, dependency ∈ links ↔ ∃ parent child,
      IsNew before after parent ∧ after.Holds child ∧ child.identity = identity ∧
        dependency.parent = parent.id ∧ dependency.child = child.id ∧
        (parent.grant.offers registry graph).lookup child.grant = some dependency.kind

/-- A new entry was stored under a number that no earlier dependency has. -/
theorem Intact.notFromNew (intact : before.Intact)
    (kept : ∀ entry, before.Holds entry → after.Holds entry) (isNew : IsNew before after entry)
    (member : dependency ∈ before.dependencies) : dependency.parent ≠ entry.id := by
  intro isParent
  obtain ⟨holder, found⟩ := Option.isSome_iff_exists.mp (intact.anchored dependency member).1
  have holderHeld := intact.numbered.holds found
  have sameId : holder.id = entry.id := (intact.numbered _ _ found).1.trans isParent
  exact isNew.fresh ((kept holder holderHeld).eq_of_id isNew.held sameId ▸ holderHeld)

namespace Grown

variable (grown : Grown registry graph before root after)
include grown

theorem sprung (isNew : IsNew before after entry) : Sprung registry graph before root entry :=
  ((grown.isNew isNew.held).resolve_left isNew.fresh).2.2

/-- The new dependencies are those by which the new entries are attended to. -/
theorem mem_links (intact : before.Intact)
    (attended : ∀ entry, IsNew before after entry →
      Attended (entry.grant.offers registry graph) entry after)
    {links : List Dependency}
    (dependencies : after.dependencies = before.dependencies ++ links)
    (areLinks : ∀ dependency ∈ links, IsLink registry graph before root after dependency)
    (dependency : Dependency) : dependency ∈ links ↔ ∃ parent child,
      IsNew before after parent ∧ after.Holds child ∧ child.identity = root.identity ∧
        dependency.parent = parent.id ∧ dependency.child = child.id ∧
        (parent.grant.offers registry graph).lookup child.grant = some dependency.kind := by
  constructor
  · intro member
    obtain ⟨parent, _, link, sprung, -⟩ := areLinks dependency member
    have isNew : IsNew before after parent :=
      ⟨link.parentHeld, fun held => sprung.unstored parent held sprung.identity rfl⟩
    obtain ⟨child, offered⟩ := (attended parent isNew).only dependency link.member link.isParent
    exact ⟨parent, child, isNew, offered.childHeld, offered.identity.trans sprung.identity,
      offered.isParent, offered.isChild, offered.kind⟩
  · rintro ⟨parent, child, isNew, childHeld, sameIdentity, isParent, isChild, listed⟩
    have member := (attended parent isNew).mem_dependencies grown.intact childHeld
      (sameIdentity.trans (grown.sprung isNew).identity.symm) listed isParent isChild
    rw [dependencies] at member
    exact (List.mem_append.mp member).resolve_left fun earlier =>
      intact.notFromNew (fun _ => grown.kept) isNew earlier isParent

end Grown

/-- After a grant was stored and propagated, **each new entry is attended to**. -/
theorem attended_of_spread (intact : before.Intact)
    (stored : before.createEntry root.identity root.object root.role = .ok (root, extended))
    (spread : Spread registry graph root (root.grant.offers registry graph) extended after)
    (isNew : IsNew before after entry) :
    Attended (entry.grant.offers registry graph) entry after := by
  have held {other : Entry} : extended.Holds other ↔ other = root ∨ before.Holds other :=
    intact.numbered.holds_createEntry stored
  have rootHeld : extended.Holds root := held.mpr (.inl rfl)
  by_cases earlier : extended.Holds entry
  · obtain rfl := (held.mp earlier).resolve_right isNew.fresh
    exact spread.attends (intact.createEntry stored) rootHeld (intact.noLinks stored)
  · exact spread.attended (intact.createEntry stored) rootHeld isNew.held earlier

/-- **Propagation stores what ensues.** -/
theorem ensued_of_spread (intact : before.Intact)
    (stored : before.createEntry root.identity root.object root.role = .ok (root, extended))
    (spread : Spread registry graph root (root.grant.offers registry graph) extended after) :
    Ensued registry graph root.identity root.grant before after ∧ IsNew before after root := by
  have grown : Grown registry graph before root after := .ofSpread intact stored spread
  have rootIsNew : IsNew before after root := ⟨grown.held, grown.root_isNew⟩
  have attended (entry : Entry) (isNew : IsNew before after entry) :
      Attended (entry.grant.offers registry graph) entry after :=
    attended_of_spread intact stored spread isNew
  refine ⟨⟨grown.intact, fun _ => grown.kept, fun who grant => ⟨?_, ?_⟩,
    fun parent grant kind isNew listed => ?_, ?_⟩, rootIsNew⟩
  · rintro ⟨entry, isNew, rfl, rfl⟩
    have sprung := grown.sprung isNew
    exact ⟨sprung.identity, ensues_of_reaches sprung.reached sprung.unstored⟩
  · rintro ⟨rfl, ensues⟩
    exact exists_of_ensues attended rootIsNew ensues
  · obtain ⟨_, child, offered, sameGrant⟩ := (attended parent isNew).linked listed
    exact ⟨child, offered.childHeld, offered.identity.trans (grown.sprung isNew).identity,
      sameGrant⟩
  · obtain ⟨links, dependencies, areLinks⟩ := grown.links
    exact ⟨links, dependencies, grown.mem_links intact attended dependencies areLinks⟩

end Store

end BookingAccess
