/-
**A grant while nothing stands in the way.**

As long as nothing stands in the way, propagation does not fail: the roles that the rules give are
allowed, an entry is only stored where there is none, and both ends of a link are stored. It comes
to an end by itself, since each step down takes one of finitely many grants. So a grant that is
allowed is stored with everything that follows from it.

* `room`: how many grants are left for propagation to store; `room_lt`: a new entry takes room;
* `answered_grantChild`: a child entry is obtained, and linked to its parent if that is stored;
* `Spreads`: what a part of a grant does; `spreads_propagate`: by induction on the depth;
* `Sprouts`, `spreads_createEntry`: a grant that is new.
-/

import BookingAccess.Proofs.Store.Passing
import BookingAccess.Proofs.Transaction.Calm

namespace BookingAccess.Manager

open Service Store

variable {manager : ManagerId} {before middle after service : Service} {parent entry : Entry}
  {identity : Identity} {object : ObjectRef} {role : Role}
  {offers more : List (Grant × DependencyKind)}

/-! ### Room for propagation -/

/-- The grants that propagation can come to. -/
def candidates (service : Service) : List Grant :=
  service.graph.links.flatMap fun link =>
    (service.registry.allowedRoles link.child.objectClass).map fun role => ⟨link.child, role⟩

/-- How many of them the identity does not have. -/
def room (service : Service) (identity : Identity) : Nat :=
  (candidates service).countP fun grant =>
    (service.store.find? identity grant.object grant.role).isNone

theorem room_lt_propagationDepth : room service identity < propagationDepth service := by
  refine Nat.lt_succ_of_le (List.countP_le_length.trans (Nat.le_of_eq ?_))
  simp [candidates, List.length_flatMap]

theorem mem_candidates {parent child : Grant} {kind : DependencyKind}
    (leads : parent.Leads service.registry service.graph kind child) :
    child ∈ candidates service := by
  obtain ⟨rule, -, -, isChild, -⟩ := leads.rule
  refine List.mem_flatMap.mpr ⟨_, (ObjectGraph.mem_children ..).mp isChild,
    List.mem_map.mpr ⟨child.role, ?_, rfl⟩⟩
  have allows := leads.allows
  unfold Registry.allows at allows
  unfold Registry.allowedRoles ObjectType.allowedRoles
  cases found : service.registry.get? child.object.objectClass with
  | none =>
    rw [found] at allows
    exact nomatch allows
  | some type =>
    rw [found] at allows
    exact Std.ExtTreeMap.mem_keys.mpr allows

/-- What is not stored later was not stored before, as long as entries are kept. -/
theorem isNone_of_kept {earlier later : Store} (numbered : earlier.Numbered)
    (numberedLater : later.Numbered) (kept : ∀ entry, earlier.Holds entry → later.Holds entry)
    (absent : (later.find? identity object role).isNone = true) :
    (earlier.find? identity object role).isNone = true := by
  rw [Option.isNone_iff_eq_none, numberedLater.find?_eq_none_iff] at absent
  rw [Option.isNone_iff_eq_none, numbered.find?_eq_none_iff]
  exact fun entry holds => absent entry (kept entry holds)

/-- So no room is gained. -/
theorem room_le (same : SameSurroundings before after) (numbered : before.store.Numbered)
    (numberedAfter : after.store.Numbered)
    (kept : ∀ entry, before.store.Holds entry → after.store.Holds entry) :
    room after identity ≤ room before identity := by
  unfold room candidates
  rw [same.graph, same.registry]
  exact List.countP_mono_left fun _ _ => isNone_of_kept numbered numberedAfter kept

/-- **A new entry takes room.** -/
theorem room_lt (same : SameSurroundings before after) (numbered : before.store.Numbered)
    (candidate : entry.grant ∈ candidates before)
    (stored : before.store.createEntry identity entry.object entry.role =
      .ok (entry, after.store)) : room after identity < room before identity := by
  obtain ⟨absent, isNew, -⟩ := createEntry_eq_ok_iff.mp stored
  have numberedAfter := numbered.createEntry stored
  have held {other : Entry} : after.store.Holds other ↔ other = entry ∨ before.store.Holds other :=
    numbered.holds_createEntry stored
  have found : (after.store.find? identity entry.object entry.role).isNone = false := by
    refine Bool.eq_false_iff.mpr fun none => ?_
    rw [Option.isNone_iff_eq_none, numberedAfter.find?_eq_none_iff] at none
    exact none entry (held.mpr (.inl rfl)) ⟨by rw [isNew], rfl, rfl⟩
  have within (grant : Grant) : (after.store.find? identity grant.object grant.role).isNone =
      ((after.store.find? identity grant.object grant.role).isNone &&
        (before.store.find? identity grant.object grant.role).isNone) := by
    refine (Bool.and_eq_left_iff_imp.mpr ?_).symm
    exact isNone_of_kept numbered numberedAfter fun _ holds => held.mpr (.inr holds)
  unfold room candidates
  rw [same.graph, same.registry, List.countP_eq_length_filter, List.countP_eq_length_filter,
    List.filter_congr fun grant _ => within grant, ← List.filter_filter]
  refine List.length_filter_lt_length_iff_exists.mpr ⟨entry.grant,
    List.mem_filter.mpr ⟨candidate, Option.isNone_iff_eq_none.mpr absent⟩, ?_⟩
  exact Bool.eq_false_iff.mp found

/-! ### Propagation -/

/-- These steps were taken from the entry, and nothing else has happened. -/
structure Spreads (manager : ManagerId) (parent : Entry) (offers : List (Grant × DependencyKind))
    (before after : Service) : Prop where
  spread : Spread before.registry before.graph parent offers before.store after.store
  surroundings : SameSurroundings before after
  calm : Calm manager after

namespace Spreads

theorem ofStill (calm : Calm manager before) (still : Still before after) :
    Spreads manager parent [] before after :=
  ⟨still.store ▸ .nothing, still.toSameSurroundings, calm.still still⟩

theorem trans (first : Spreads manager parent offers before middle)
    (second : Spreads manager parent more middle after) :
    Spreads manager parent (offers ++ more) before after := by
  refine ⟨first.spread.trans ?_, IsTrans.trans _ _ _ first.surroundings second.surroundings,
    second.calm⟩
  rw [← first.surroundings.registry, ← first.surroundings.graph]
  exact second.spread

theorem holds (spreads : Spreads manager parent offers before after) (calm : Calm manager before)
    (holds : before.store.Holds entry) : after.store.Holds entry :=
  spreads.spread.holds calm.intact holds

theorem room_le (spreads : Spreads manager parent offers before after)
    (calm : Calm manager before) : room after identity ≤ room before identity :=
  Manager.room_le spreads.surroundings calm.intact.numbered spreads.calm.intact.numbered
    fun _ => spreads.holds calm

end Spreads

/-- Where the role of the parent does not propagate nothing is granted. -/
theorem ensures_grantChild_of_not {descend : Entry → Action Unit} {child : ObjectRef}
    {kind : DependencyKind} (opened : IsOpen manager service)
    (stays : service.registry.isPropagatable parent.object.objectClass parent.role = false) :
    Ensures (grantChild descend manager parent child role kind) service
      (fun answer after => answer = none ∧ after = service) fun _ _ => False := by
  unfold grantChild
  refine (opened_requireTransaction opened).followed ?_
  rintro _ service rfl
  simp only [ensures_bind, ensures_get, stays]
  exact ensures_pure.mpr ⟨rfl, rfl⟩

/-- The entry is stored, with everything that ensues if it was not stored before. -/
structure Obtained (manager : ManagerId) (entry : Entry) (before after : Service) : Prop where
  obtains : Obtains before.registry before.graph entry before.store after.store
  surroundings : SameSurroundings before after
  calm : Calm manager after
  still : before.store.Holds entry → Still before after

/-- The entry grants this to the identity of the parent, and is linked to it. -/
structure Joined (manager : ManagerId) (parent : Entry) (grant : Grant) (kind : DependencyKind)
    (entry : Entry) (before after : Service) : Prop where
  sameIdentity : entry.identity = parent.identity
  isGrant : entry.grant = grant
  obtained : ∃ middle, Obtained manager entry before middle ∧
    Tied ⟨parent.id, entry.id, kind⟩ middle.store after.store
  surroundings : SameSurroundings before after
  calm : Calm manager after

/-- The entry grants this to the identity of the parent, but the parent is not stored. -/
structure Orphaned (manager : ManagerId) (parent : Entry) (grant : Grant) (entry : Entry)
    (before after : Service) : Prop where
  sameIdentity : entry.identity = parent.identity
  isGrant : entry.grant = grant
  obtained : Obtained manager entry before after
  unstored : after.store.get? parent.id = none

theorem Joined.kept {grant : Grant} {kind : DependencyKind} {other : Entry}
    (joined : Joined manager parent grant kind entry before after) (intact : before.store.Intact)
    (holds : before.store.Holds other) : after.store.Holds other := by
  obtain ⟨middle, obtained, tied⟩ := joined.obtained
  exact tied.holds_iff.mpr (obtained.obtains.kept intact holds)

/-- That does not happen to an entry that is stored. -/
theorem Orphaned.not_holds {grant : Grant}
    (orphaned : Orphaned manager parent grant entry before after) (intact : before.store.Intact) :
    ¬ before.store.Holds parent := by
  intro holds
  have stays : after.store.Holds parent := orphaned.obtained.obtains.kept intact holds
  exact Option.some_ne_none _ (stays.symm.trans orphaned.unstored)

/-- **The child entry is obtained, and linked if its parent is stored.** -/
theorem answered_grantChild {descend : Entry → Action Unit} {child : ObjectRef}
    {kind : DependencyKind} (calm : Calm manager service)
    (propagates : service.registry.isPropagatable parent.object.objectClass parent.role = true)
    (allows : service.registry.allows child.objectClass role = true)
    (descends : ∀ entry extended, SameSurroundings service extended → Calm manager extended →
      service.store.createEntry parent.identity child role = .ok (entry, extended.store) →
      Ensures (descend entry) extended
        (fun _ => Spreads manager entry (entry.grant.offers extended.registry extended.graph)
          extended)
        fun _ _ => False) :
    Ensures (grantChild descend manager parent child role kind) service
      (fun answer after => ∃ entry, answer = some entry ∧
        Joined manager parent ⟨child, role⟩ kind entry service after)
      (fun fault after => fault = .storage (.entryNotFound parent.id) ∧
        ∃ entry, Orphaned manager parent ⟨child, role⟩ entry service after) := by
  unfold grantChild
  refine (opened_requireTransaction calm.opened).followed ?_
  rintro _ service rfl
  simp only [ensures_bind, ensures_get, propagates, Bool.not_true, Bool.false_eq_true, if_false]
  refine (ensures_validateRole child role).mono ?_ ?_
  rotate_left
  · rintro _ _ ⟨refused, -⟩
    cases allows.symm.trans refused
  rintro _ service ⟨-, rfl⟩
  refine (calm_getEntry calm).mono ?_ fun _ _ => False.elim
  rintro found middle ⟨isFound, still⟩
  have atMiddle := calm.still still
  -- However the entry was obtained, it is linked in the same way.
  have links {entry : Entry} {obtained : Service} (sameIdentity : entry.identity = parent.identity)
      (isGrant : entry.grant = ⟨child, role⟩)
      (isObtained : Obtained manager entry service obtained) :
      Ensures (do
        linkEntries parent entry kind
        return some entry) obtained
        (fun answer after => ∃ entry, answer = some entry ∧
          Joined manager parent ⟨child, role⟩ kind entry service after)
        (fun fault after => fault = .storage (.entryNotFound parent.id) ∧
          ∃ entry, Orphaned manager parent ⟨child, role⟩ entry service after) := by
    simp only [ensures_bind, ensures_pure]
    refine (answered_linkEntries isObtained.calm (isObtained.obtains.held calm.intact)).mono ?_ ?_
    · rintro _ after ⟨tied, same, calmAfter⟩
      exact ⟨entry, rfl, sameIdentity, isGrant, ⟨obtained, isObtained, tied⟩,
        IsTrans.trans _ _ _ isObtained.surroundings same, calmAfter⟩
    · rintro fault after ⟨rfl, unstored, stillAfter⟩
      refine ⟨rfl, entry, sameIdentity, isGrant, ⟨stillAfter.store ▸ isObtained.obtains,
        IsTrans.trans _ _ _ isObtained.surroundings stillAfter.toSameSurroundings,
        isObtained.calm.still stillAfter, fun held => ?_⟩, stillAfter.store ▸ unstored⟩
      exact IsTrans.trans _ _ _ (isObtained.still held) stillAfter
  split
  · rename_i existing
    obtain ⟨listed, sameIdentity, rfl, rfl⟩ := mem_of_find?_grants isFound.symm
    have held := calm.intact.numbered.mem_entryList.mp listed
    rw [pure_bind]
    refine links sameIdentity rfl ⟨?_, still.toSameSurroundings, atMiddle, fun _ => still⟩
    exact still.store.symm ▸ .found held
  · have absent : middle.store.find? parent.identity child role = none :=
      still.store ▸ isFound.symm
    refine (calm_insertEntry atMiddle absent).followed ?_
    rintro entry extended ⟨stored, fromMiddle, atExtended⟩
    rw [still.store] at stored
    have toExtended : SameSurroundings service extended :=
      IsTrans.trans _ _ _ still.toSameSurroundings fromMiddle
    refine (descends entry extended toExtended atExtended stored).followed ?_
    rintro _ grown below
    have spread := below.spread
    rw [toExtended.registry, toExtended.graph] at spread
    obtain ⟨-, isNew, -⟩ := createEntry_eq_ok_iff.mp stored
    obtain ⟨sameIdentity, rfl, rfl⟩ :
        parent.identity = entry.identity ∧ child = entry.object ∧ role = entry.role := by
      rw [isNew]
      exact ⟨rfl, rfl, rfl⟩
    rw [sameIdentity] at stored
    rw [pure_bind]
    refine links sameIdentity.symm rfl ⟨.stored stored spread,
      IsTrans.trans _ _ _ toExtended below.surroundings, below.calm, fun held => ?_⟩
    have unstored := unstored_of_createEntry calm.intact.numbered (fun _ => id) stored
    exact absurd rfl (unstored entry held rfl)

section Descent

variable {descend : Entry → Action Unit} {depth : Nat}
  (descends : ∀ (entry : Entry) (service : Service), Calm manager service →
    service.store.Holds entry → room service entry.identity < depth →
    Ensures (descend entry) service
      (fun _ => Spreads manager entry (entry.grant.offers service.registry service.graph) service)
      fun _ _ => False)
include descends

theorem spreads_grantChild {child : ObjectRef} {kind : DependencyKind}
    (calm : Calm manager service) (held : service.store.Holds parent)
    (enough : room service parent.identity ≤ depth)
    (leads : parent.grant.Leads service.registry service.graph kind ⟨child, role⟩) :
    Ensures (grantChild descend manager parent child role kind) service
      (fun _ => Spreads manager parent [(⟨child, role⟩, kind)] service) fun _ _ => False := by
  refine (answered_grantChild calm leads.propagates leads.allows
    fun entry extended toExtended atExtended stored => ?_).mono ?_ ?_
  · obtain ⟨-, isNew, -⟩ := createEntry_eq_ok_iff.mp stored
    obtain ⟨sameIdentity, rfl, rfl⟩ :
        entry.identity = parent.identity ∧ child = entry.object ∧ role = entry.role := by
      rw [isNew]
      exact ⟨rfl, rfl, rfl⟩
    have less : room extended entry.identity < depth :=
      sameIdentity ▸ Nat.lt_of_lt_of_le
        (room_lt toExtended calm.intact.numbered (mem_candidates leads) stored) enough
    exact descends entry extended atExtended
      ((calm.intact.numbered.holds_createEntry stored).mpr (.inl rfl)) less
  · rintro _ after ⟨entry, -, joined⟩
    refine ⟨?_, joined.surroundings, joined.calm⟩
    obtain ⟨middle, obtained, tied⟩ := joined.obtained
    rw [← joined.isGrant] at leads ⊢
    exact obtained.obtains.spread joined.sameIdentity leads tied
  · rintro _ after ⟨-, entry, orphaned⟩
    exact orphaned.not_holds calm.intact held

theorem spreads_applyRule {rule : PropagationRule} (calm : Calm manager service)
    (held : service.store.Holds parent) (enough : room service parent.identity ≤ depth)
    (member : rule ∈ service.registry.rules parent.object.objectClass) :
    Ensures (applyRule descend manager parent rule) service
      (fun _ => Spreads manager parent
        (rule.offers service.registry service.graph parent.grant) service) fun _ _ => False := by
  have none (empty : rule.offers service.registry service.graph parent.grant = []) {later : Service}
      (still : Still service later) : Spreads manager parent
        (rule.offers service.registry service.graph parent.grant) service later :=
    empty ▸ .ofStill calm still
  unfold applyRule
  simp only [ensures_bind, ensures_get]
  split
  · rename_i missing
    exact ensures_pure.mpr (none (by simp [PropagationRule.offers, Entry.grant, missing]) (refl _))
  rename_i role kind given
  refine (calm_children calm).followed ?_
  rintro children middle ⟨rfl, still⟩
  cases propagates : service.registry.isPropagatable parent.object.objectClass parent.role with
  | false =>
    refine (Ensures.forInOrder (fun _ => Still service) still ?_).mono
      (fun _ _ => none (by simp [PropagationRule.offers, Entry.grant, propagates])) fun _ _ => id
    rintro _ child _ - later soFar
    have atLater := calm.still soFar
    simp only [ensures_bind, ensures_pure]
    refine (ensures_grantChild_of_not atLater.opened ?_).mono (fun _ _ same => same.2 ▸ soFar)
      fun _ _ => id
    rw [soFar.registry]
    exact propagates
  | true =>
    have offers : rule.offers service.registry service.graph parent.grant =
        ((service.graph.children parent.object rule.relation).filter
          (·.objectClass == rule.childClass)).map fun child => (⟨child, role⟩, kind) := by
      simp [PropagationRule.offers, Entry.grant, propagates, given]
    rw [offers]
    refine Ensures.forInOrder (fun children => Spreads manager parent
      (children.map fun child => (⟨child, role⟩, kind)) service) (.ofStill calm still) ?_
    rintro earlier child rest split later soFar
    obtain ⟨isChild, sameClass⟩ := List.mem_filter.mp (split ▸ List.mem_append_right _ (.head _))
    have leads : parent.grant.Leads later.registry later.graph kind ⟨child, role⟩ := by
      rw [soFar.surroundings.registry, soFar.surroundings.graph]
      exact ⟨propagates, rule, member, given, isChild, beq_iff_eq.mp sameClass⟩
    simp only [ensures_bind, ensures_pure]
    refine (spreads_grantChild descends soFar.calm (soFar.holds calm held)
      ((soFar.room_le calm).trans enough) leads).mono (fun _ _ step => ?_) fun _ _ => id
    rw [List.map_append]
    exact soFar.trans step

end Descent

/-- **Propagation takes every step and does not fail.** -/
theorem spreads_propagate (depth : Nat) (calm : Calm manager service)
    (held : service.store.Holds parent) (enough : room service parent.identity < depth) :
    Ensures (propagate depth manager parent) service
      (fun _ => Spreads manager parent
        (parent.grant.offers service.registry service.graph) service) fun _ _ => False := by
  induction depth generalizing parent service with
  | zero => exact absurd enough (Nat.not_lt_zero _)
  | succ depth ih =>
    unfold propagate
    simp only [ensures_bind, ensures_get]
    refine Ensures.forInOrder (fun rules => Spreads manager parent
      (rules.flatMap (PropagationRule.offers service.registry service.graph parent.grant)) service)
      (.ofStill calm (refl _)) ?_
    rintro earlier rule rest split later soFar
    have member : rule ∈ later.registry.rules parent.object.objectClass := by
      rw [soFar.surroundings.registry, split]
      exact List.mem_append_right _ (.head _)
    refine (spreads_applyRule (fun _ _ => ih) soFar.calm (soFar.holds calm held)
      ((soFar.room_le calm).trans (Nat.le_of_lt_succ enough)) member).mono (fun _ _ step => ?_)
      fun _ _ => id
    rw [soFar.surroundings.registry, soFar.surroundings.graph] at step
    rw [List.flatMap_append, List.flatMap_singleton]
    exact soFar.trans step

theorem spreads_propagateFrom (calm : Calm manager service) (held : service.store.Holds parent) :
    Ensures (propagateFrom manager parent) service
      (fun _ => Spreads manager parent
        (parent.grant.offers service.registry service.graph) service) fun _ _ => False := by
  unfold propagateFrom
  simp only [ensures_bind, ensures_get]
  exact spreads_propagate _ calm held room_lt_propagationDepth

/-- What a grant that is new leaves. -/
structure Sprouts (manager : ManagerId) (identity : Identity) (grant : Grant) (root : Entry)
    (before after : Service) : Prop where
  sameIdentity : root.identity = identity
  isGrant : root.grant = grant
  grown : Grown before.registry before.graph before.store root after.store
  isNew : IsNew before.store after.store root
  ensued : Ensued before.registry before.graph identity grant before.store after.store
  surroundings : SameSurroundings before after
  calm : Calm manager after

/-- **A grant that is new is stored with everything that follows from it**, unless it is one to
root or the class of the object does not have the role. -/
theorem spreads_createEntry (calm : Calm manager service)
    (absent : service.store.find? identity object role = none) :
    Ensures (createEntry manager identity object role) service
      (fun answer after => identity.isRoot = true ∧ answer = none ∨
        (identity.isRoot = false ∧ service.registry.allows object.objectClass role = true) ∧
          ∃ root, answer = some root ∧ Sprouts manager identity ⟨object, role⟩ root service after)
      (fun _ _ => service.registry.allows object.objectClass role = false) := by
  unfold createEntry
  split
  · rename_i isRoot
    exact ensures_pure.mpr (.inl ⟨isRoot, rfl⟩)
  rename_i notRoot
  refine (opened_requireTransaction calm.opened).followed ?_
  rintro _ service rfl
  refine ensures_bind.mpr ((ensures_validateRole object role).mono ?_ fun _ _ => And.left)
  rintro _ service ⟨allows, rfl⟩
  have permitted := And.intro (Bool.not_eq_true _ ▸ notRoot) allows
  refine (calm_getEntry calm).followed ?_
  rintro found middle ⟨isFound, still⟩
  rw [absent] at isFound
  subst isFound
  have atMiddle := calm.still still
  simp only [ensures_bind, ensures_pure]
  refine (calm_insertEntry atMiddle (still.store ▸ absent)).mono ?_ fun _ _ => False.elim
  rintro root extended ⟨stored, toExtended, atExtended⟩
  have rootHeld := (atMiddle.intact.numbered.holds_createEntry stored).mpr (.inl rfl)
  refine (spreads_propagateFrom atExtended rootHeld).mono ?_ fun _ _ => False.elim
  rintro _ after below
  have toAfter : SameSurroundings service extended :=
    IsTrans.trans _ _ _ still.toSameSurroundings toExtended
  have spread := below.spread
  rw [toAfter.registry, toAfter.graph] at spread
  rw [still.store] at stored
  obtain ⟨-, isNew, -⟩ := createEntry_eq_ok_iff.mp stored
  obtain ⟨rfl, rfl, rfl⟩ :
      identity = root.identity ∧ object = root.object ∧ role = root.role := by
    rw [isNew]
    exact ⟨rfl, rfl, rfl⟩
  obtain ⟨ensued, rootIsNew⟩ := ensued_of_spread calm.intact stored spread
  exact .inr ⟨permitted, root, rfl, rfl, rfl, .ofSpread calm.intact stored spread, rootIsNew,
    ensued, IsTrans.trans _ _ _ toAfter below.surroundings, below.calm⟩

/-- A grant that is new is created exactly if it is not one to root and the class of the object has
the role. -/
theorem exists_created_iff (calm : Calm manager service)
    (absent : service.store.find? identity object role = none) :
    (∃ root after, (createEntry manager identity object role).run.run service =
        (.ok (some root), after)) ↔
      identity.isRoot = false ∧ service.registry.allows object.objectClass role = true := by
  have creates := spreads_createEntry calm absent
  constructor
  · rintro ⟨root, after, result⟩
    rcases creates.of_ok result with ⟨-, nothing⟩ | ⟨permitted, -⟩
    · exact nomatch nothing
    · exact permitted
  · rintro ⟨notRoot, allows⟩
    rcases result : (createEntry manager identity object role).run.run service with
      ⟨fault | answer, after⟩
    · exact nomatch allows.symm.trans (creates.of_error result)
    · rcases creates.of_ok result with ⟨isRoot, -⟩ | ⟨-, root, rfl, -⟩
      · exact nomatch notRoot.symm.trans isRoot
      · exact ⟨root, after, rfl⟩

end BookingAccess.Manager
