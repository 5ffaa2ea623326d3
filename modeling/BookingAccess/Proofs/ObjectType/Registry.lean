/-
**Which types make a registry.**

Types are declared one after another, and only then are their rules looked at, so a rule may lead
to a class that is declared later. What is reported of a list with several faults is the fault of
the first type that cannot follow those before it; a rule that leads nowhere is reported only of a
list all of whose types can be declared.

* `ObjectType.Breaks`: why a type cannot follow others, with the reason that is found first;
* `Registry.Sound`, `Registry.Closed`: the types can be declared, and their rules lead to them;
* `declared_declare`: one declaration; `Declared.foldlM`: any number of them; `made_ofTypes`: a
  whole list;
* `ofTypes_accepts_exactly`: the lists that are accepted, and the fault of any other.
-/

import BookingAccess.ObjectType.Booking
import BookingAccess.Proofs.OrderedMap

namespace BookingAccess

open OrderedMap Std

/-! ### A type by itself -/

namespace ObjectType

variable {type : ObjectType} {earlier : List ObjectType} {fault other : RegistryError} {role : Role}

/-- The type has a role, and no role propagates that it does not have. -/
structure Lawful (type : ObjectType) : Prop where
  staffed : ∃ role, type.allows role = true
  propagates : ∀ role, type.isPropagatable role = true → type.allows role = true

/-- The type cannot be declared after the earlier ones, for the reason that is found first: that it
has no role comes before the least role that propagates although the type does not have it, and
this before an earlier type of the same class. -/
inductive Breaks (earlier : List ObjectType) (type : ObjectType) : RegistryError → Prop
  | noRoles (bare : ∀ role, type.allows role = false) :
    Breaks earlier type (.noRoles type.objectClass)
  | propagatable {role : Role} (staffed : ∃ role, type.allows role = true)
    (propagates : type.isPropagatable role = true) (missing : type.allows role = false)
    (least : ∀ other, type.isPropagatable other = true → compare other role = .lt →
      type.allows other = true) :
    Breaks earlier type (.propagatableRoleNotAllowed type.objectClass role)
  | duplicate (lawful : type.Lawful)
    (taken : ∃ first ∈ earlier, first.objectClass = type.objectClass) :
    Breaks earlier type (.duplicateClass type.objectClass)

theorem isEmpty_roles_iff : type.roles.isEmpty = true ↔ ∀ role, type.allows role = false := by
  rw [ExtTreeMap.isEmpty_iff, ExtTreeMap.eq_empty_iff_forall_contains]
  rfl

theorem isEmpty_roles_eq_false_iff :
    type.roles.isEmpty = false ↔ ∃ role, type.allows role = true := by
  rw [← Bool.not_eq_true, isEmpty_roles_iff]
  simp

theorem not_bare (staffed : ∃ role, type.allows role = true) :
    ¬ ∀ role, type.allows role = false := by
  intro bare
  obtain ⟨role, allowed⟩ := staffed
  exact Bool.noConfusion ((bare role).symm.trans allowed)

/-- A role that the type does not have propagates only where it is named. -/
theorem mem_propagatable_iff (missing : type.allows role = false) :
    role ∈ (type.propagatable.getD ∅).toList ↔ type.isPropagatable role = true := by
  rw [ExtTreeSet.mem_toList]
  unfold isPropagatable
  cases type.propagatable with
  | none => simp [missing]
  | some roles => simp

/-- **A type has no fault exactly if it has a role and those that propagate.** -/
theorem fault?_eq_none_iff : type.fault? = none ↔ type.Lawful := by
  unfold fault?
  split
  · rename_i bare
    refine ⟨(fun fault => nomatch fault), fun lawful => ?_⟩
    exact absurd (isEmpty_roles_iff.mp bare) (not_bare lawful.staffed)
  · rename_i roled
    have staffed := isEmpty_roles_eq_false_iff.mp (Bool.eq_false_iff.mpr roled)
    simp only [Option.map_eq_none_iff, List.find?_eq_none, Bool.not_eq_true', Bool.not_eq_false]
    constructor
    · refine fun kept => ⟨staffed, fun role propagates => ?_⟩
      cases allowed : type.allows role with
      | true => rfl
      | false =>
        have named := (mem_propagatable_iff allowed).mpr propagates
        exact allowed.symm.trans (kept role named)
    · intro lawful role named
      cases allowed : type.allows role with
      | true => rfl
      | false =>
        have propagates := (mem_propagatable_iff allowed).mp named
        exact allowed.symm.trans (lawful.propagates role propagates)

instance : Decidable type.Lawful := decidable_of_iff _ fault?_eq_none_iff

/-- **The fault of a type is a reason why it cannot be declared, whatever came before.** -/
theorem breaks_of_fault? (found : type.fault? = some fault) : type.Breaks earlier fault := by
  unfold fault? at found
  split at found
  · rename_i bare
    obtain rfl := Option.some.inj found
    exact .noRoles (isEmpty_roles_iff.mp bare)
  · rename_i roled
    have staffed := isEmpty_roles_eq_false_iff.mp (Bool.eq_false_iff.mpr roled)
    obtain ⟨role, first, rfl⟩ := Option.map_eq_some_iff.mp found
    obtain ⟨missing, before, after, split, kept⟩ := List.find?_eq_some_iff_append.mp first
    have missing : type.allows role = false := by simpa using missing
    have named : role ∈ (type.propagatable.getD ∅).toList := by simp [split]
    have ordered := ExtTreeSet.ordered_toList (t := type.propagatable.getD ∅)
    refine .propagatable staffed ((mem_propagatable_iff missing).mp named) missing ?_
    intro other propagates less
    cases allowed : type.allows other with
    | true => rfl
    | false =>
      have place := (mem_propagatable_iff allowed).mpr propagates
      rw [split, List.mem_append, List.mem_cons] at place
      -- The roles are listed in order, so a lesser one stands before the one that was found.
      rcases place with place | rfl | place
      · simpa [allowed] using kept other place
      · exact nomatch less.symm.trans ReflCmp.compare_self
      · rw [split, List.pairwise_append, List.pairwise_cons] at ordered
        have greater := ordered.2.1.1 other place
        exact nomatch less.symm.trans (OrientedCmp.gt_iff_lt.mpr greater)

namespace Breaks

/-- With a type that is in order by itself, only an earlier one can be in the way. -/
theorem of_lawful (breaks : type.Breaks earlier fault) (lawful : type.Lawful) :
    fault = .duplicateClass type.objectClass ∧
      ∃ first ∈ earlier, first.objectClass = type.objectClass := by
  cases breaks with
  | noRoles bare => exact absurd bare (not_bare lawful.staffed)
  | @propagatable role _ propagates missing =>
    exact Bool.noConfusion (missing.symm.trans (lawful.propagates role propagates))
  | duplicate _ taken => exact ⟨rfl, taken⟩

/-- A type that cannot be declared has one reason. -/
theorem unique (breaks : type.Breaks earlier fault) (breaksToo : type.Breaks earlier other) :
    fault = other := by
  cases breaks with
  | duplicate lawful => exact (breaksToo.of_lawful lawful).1.symm
  | noRoles bare =>
    cases breaksToo with
    | noRoles => rfl
    | propagatable staffed => exact absurd bare (not_bare staffed)
    | duplicate lawful => exact absurd bare (not_bare lawful.staffed)
  | @propagatable role staffed propagates missing least =>
    cases breaksToo with
    | noRoles bare => exact absurd bare (not_bare staffed)
    | duplicate lawful =>
      exact Bool.noConfusion (missing.symm.trans (lawful.propagates role propagates))
    | @propagatable another _ propagatesToo missingToo leastToo =>
      cases order : compare role another with
      | eq => rw [LawfulEqCmp.eq_of_compare order]
      | lt => exact Bool.noConfusion (missing.symm.trans (leastToo role propagates order))
      | gt =>
        have less := OrientedCmp.gt_iff_lt.mp order
        exact Bool.noConfusion (missingToo.symm.trans (least another propagatesToo less))

end Breaks

end ObjectType

/-! ### A list of types -/

namespace Registry

variable {registry : Registry} {types earlier : List ObjectType} {type : ObjectType}
  {fault other : RegistryError} {attempt : Except RegistryError Registry}

/-- Each of the types can be declared after those before it. -/
structure Sound (types : List ObjectType) : Prop where
  lawful : ∀ type ∈ types, type.Lawful
  distinct : (types.map ObjectType.objectClass).Nodup

/-- Every rule leads to the class of one of the types, wherever in the list this is. -/
def Closed (types : List ObjectType) : Prop :=
  ∀ type ∈ types, ∀ rule ∈ type.rules, ∃ child ∈ types, child.objectClass = rule.childClass

instance : Decidable (Sound types) :=
  decidable_of_iff ((∀ type ∈ types, type.Lawful) ∧ (types.map ObjectType.objectClass).Nodup)
    ⟨fun ⟨lawful, distinct⟩ => ⟨lawful, distinct⟩, fun sound => ⟨sound.lawful, sound.distinct⟩⟩

instance : Decidable (Closed types) :=
  inferInstanceAs (Decidable (∀ type ∈ types, ∀ rule ∈ type.rules, ∃ child ∈ types, _ = _))

/-- The fault of the first type that cannot follow those before it. -/
inductive FirstFault : List ObjectType → RegistryError → Prop
  | intro {earlier later : List ObjectType} {type : ObjectType} {fault : RegistryError}
    (sound : Sound earlier) (breaks : type.Breaks earlier fault) :
    FirstFault (earlier ++ type :: later) fault

/-- The fault of a rule that leads to a class of none of the types. -/
inductive Dangling (types : List ObjectType) : RegistryError → Prop
  | intro {type : ObjectType} {rule : PropagationRule} (member : type ∈ types)
    (ruled : rule ∈ type.rules) (unknown : ∀ child ∈ types, child.objectClass ≠ rule.childClass) :
    Dangling types (.unknownChildClass type.objectClass rule.relation rule.childClass)

/-- A look-up finds these types, each under its class, and nothing else. -/
def Knows (registry : Registry) (types : List ObjectType) : Prop :=
  ∀ objectClass type,
    registry.get? objectClass = some type ↔ type ∈ types ∧ type.objectClass = objectClass

theorem Sound.of_append {later : List ObjectType} (sound : Sound (earlier ++ later)) :
    Sound earlier := by
  have distinct := sound.distinct
  rw [List.map_append, List.nodup_append] at distinct
  exact ⟨fun type member => sound.lawful type (List.mem_append_left _ member), distinct.1⟩

/-- One more type can be declared if it is in order by itself and its class is free. -/
theorem sound_append_singleton :
    Sound (earlier ++ [type]) ↔
      Sound earlier ∧ type.Lawful ∧ ∀ first ∈ earlier, first.objectClass ≠ type.objectClass := by
  constructor
  · intro sound
    have distinct := sound.distinct
    rw [List.map_append, List.nodup_append] at distinct
    refine ⟨sound.of_append, sound.lawful type (by simp), fun first member => ?_⟩
    exact distinct.2.2 _ (List.mem_map_of_mem member) _ (by simp)
  · rintro ⟨sound, lawful, fresh⟩
    refine ⟨fun first member => ?_, ?_⟩
    · rcases List.mem_append.mp member with member | member
      · exact sound.lawful first member
      · exact List.mem_singleton.mp member ▸ lawful
    · rw [List.map_append, List.nodup_append]
      refine ⟨sound.distinct, by simp, ?_⟩
      simpa using fresh

theorem not_sound_of_breaks {later : List ObjectType} (breaks : type.Breaks earlier fault) :
    ¬ Sound (earlier ++ type :: later) := by
  intro sound
  rw [List.append_cons] at sound
  obtain ⟨-, lawful, fresh⟩ := sound_append_singleton.mp sound.of_append
  obtain ⟨-, first, member, same⟩ := breaks.of_lawful lawful
  exact fresh first member same

namespace FirstFault

theorem not_sound (first : FirstFault types fault) : ¬ Sound types := by
  obtain ⟨-, breaks⟩ := first
  exact not_sound_of_breaks breaks

/-- A fault stays the first whatever types follow. -/
theorem append (first : FirstFault types fault) (more : List ObjectType) :
    FirstFault (types ++ more) fault := by
  obtain ⟨sound, breaks⟩ := first
  rw [List.append_assoc]
  exact .intro sound breaks

/-- **A list of types has at most one first fault.** -/
theorem unique (first : FirstFault types fault) (second : FirstFault types other) :
    fault = other := by
  cases first with
  | @intro earlier later type _ sound breaks =>
  generalize whole : earlier ++ type :: later = types at second
  cases second with
  | @intro earlierToo laterToo typeToo _ soundToo breaksToo =>
  -- Were one of the two types before the other, it would be among types that can be declared.
  rcases List.append_eq_append_iff.mp whole with ⟨between, rfl, rest⟩ | ⟨between, rfl, rest⟩
  · cases between with
    | nil =>
      obtain ⟨rfl, rfl⟩ := List.cons.inj rest
      exact breaks.unique (by simpa using breaksToo)
    | cons head tail =>
      obtain ⟨rfl, rfl⟩ := List.cons.inj rest
      exact absurd soundToo (not_sound_of_breaks breaks)
  · cases between with
    | nil =>
      obtain ⟨rfl, rfl⟩ := List.cons.inj rest
      exact breaks.unique (by simpa using breaksToo)
    | cons head tail =>
      obtain ⟨rfl, rfl⟩ := List.cons.inj rest
      exact absurd sound (not_sound_of_breaks breaksToo)

end FirstFault

/-! ### Declaring them -/

theorem knows_empty : empty.Knows [] := fun objectClass type => by simp [get?, empty]

namespace Knows

theorem contains_iff (knows : registry.Knows types) {objectClass : ObjectClass} :
    registry.types.contains objectClass = true ↔
      ∃ type ∈ types, type.objectClass = objectClass := by
  rw [ExtTreeMap.contains_iff_mem, mem_iff_exists]
  exact exists_congr fun type => knows objectClass type

theorem mem_values_iff (knows : registry.Knows types) :
    type ∈ registry.types.values ↔ type ∈ types := by
  rw [OrderedMap.mem_values_iff]
  constructor
  · rintro ⟨objectClass, found⟩
    exact ((knows objectClass type).mp found).1
  · exact fun member => ⟨type.objectClass, (knows _ type).mpr ⟨member, rfl⟩⟩

/-- With a type of a class that none of the others has, the registry knows one type more. -/
theorem insert (knows : registry.Knows earlier)
    (fresh : ∀ first ∈ earlier, first.objectClass ≠ type.objectClass) :
    Knows ⟨registry.types.insert type.objectClass type⟩ (earlier ++ [type]) := by
  intro objectClass found
  simp only [get?, lookup_insert, List.mem_append, List.mem_singleton]
  split
  · rename_i here
    subst here
    constructor
    · exact fun same => ⟨.inr (Option.some.inj same).symm, Option.some.inj same ▸ rfl⟩
    · rintro ⟨member | rfl, same⟩
      · exact absurd same (fresh found member)
      · rfl
  · rename_i elsewhere
    refine (knows objectClass found).trans (and_congr_left fun same => ?_)
    refine ⟨.inl, Or.rec id ?_⟩
    rintro rfl
    exact absurd same elsewhere

end Knows

/-- What declaring the types one after another comes to. -/
inductive Declared (types : List ObjectType) : Except RegistryError Registry → Prop
  | all {registry : Registry} (sound : Sound types) (knows : registry.Knows types) :
    Declared types (.ok registry)
  | stopped {fault : RegistryError} (first : FirstFault types fault) :
    Declared types (.error fault)

/-- **One declaration.** A type is added to those before it, or it breaks a rule. -/
theorem declared_declare (sound : Sound earlier) (knows : registry.Knows earlier)
    (type : ObjectType) : Declared (earlier ++ [type]) (registry.declare type) := by
  unfold declare
  split
  · exact .stopped (.intro sound (ObjectType.breaks_of_fault? ‹_›))
  · have lawful := ObjectType.fault?_eq_none_iff.mp ‹_›
    split
    · exact .stopped (.intro sound (.duplicate lawful (knows.contains_iff.mp ‹_›)))
    · have fresh : ∀ first ∈ earlier, first.objectClass ≠ type.objectClass :=
        fun first member same => ‹¬ _› (knows.contains_iff.mpr ⟨first, member, same⟩)
      exact .all (sound_append_singleton.mpr ⟨sound, lawful, fresh⟩) (knows.insert fresh)

/-- **Any number of declarations.** By induction on the types that are still to come. -/
theorem Declared.foldlM (declared : Declared earlier attempt) (types : List ObjectType) :
    Declared (earlier ++ types) (attempt >>= types.foldlM declare) := by
  induction types generalizing earlier attempt with
  | nil =>
    rw [List.append_nil]
    cases attempt <;> exact declared
  | cons type types hypothesis =>
    rw [List.append_cons]
    cases declared with
    | all sound knows => exact hypothesis (declared_declare sound knows type)
    | stopped first => exact .stopped ((first.append [type]).append types)

/-! ### Looking at their rules -/

theorem danglingRule?_eq_none_iff (knows : registry.Knows types) :
    registry.danglingRule? type = none ↔
      ∀ rule ∈ type.rules, ∃ child ∈ types, child.objectClass = rule.childClass := by
  simp only [danglingRule?, Option.map_eq_none_iff, List.find?_eq_none, Bool.not_eq_true',
    Bool.not_eq_false, knows.contains_iff]

theorem dangling_of_danglingRule? (knows : registry.Knows types) (member : type ∈ types)
    (found : registry.danglingRule? type = some fault) : Dangling types fault := by
  obtain ⟨rule, first, rfl⟩ := Option.map_eq_some_iff.mp found
  refine .intro member (List.mem_of_find?_eq_some first) fun child childMember same => ?_
  have unknown := List.find?_some first
  rw [knows.contains_iff.mpr ⟨child, childMember, same⟩] at unknown
  exact nomatch unknown

/-- What making a registry of the types comes to. -/
inductive Made (types : List ObjectType) : Except RegistryError Registry → Prop
  | registry {registry : Registry} (sound : Sound types) (closed : Closed types)
    (knows : registry.Knows types) : Made types (.ok registry)
  | refused {fault : RegistryError} (first : FirstFault types fault) : Made types (.error fault)
  | leading {fault : RegistryError} (sound : Sound types) (dangling : Dangling types fault) :
    Made types (.error fault)

theorem Dangling.not_closed (dangling : Dangling types fault) : ¬ Closed types := by
  obtain ⟨member, ruled, unknown⟩ := dangling
  intro closed
  obtain ⟨child, childMember, same⟩ := closed _ member _ ruled
  exact unknown child childMember same

/-- **A whole list.** -/
theorem made_ofTypes (types : List ObjectType) : Made types (ofTypes types) := by
  have start : Declared [] (.ok empty) := .all ⟨by simp, by simp⟩ knows_empty
  have declared := start.foldlM types
  change Declared types (types.foldlM declare empty) at declared
  unfold ofTypes
  generalize types.foldlM declare empty = attempt at declared ⊢
  cases declared with
  | stopped first => exact .refused first
  | @all registry sound knows =>
    dsimp only [bind, Except.bind]
    split
    · rename_i found
      obtain ⟨type, member, found⟩ := List.exists_of_findSome?_eq_some found
      exact .leading sound (dangling_of_danglingRule? knows (knows.mem_values_iff.mp member) found)
    · rename_i none
      refine .registry sound (fun type member => ?_) knows
      rw [← danglingRule?_eq_none_iff knows]
      exact List.findSome?_eq_none_iff.mp none type (knows.mem_values_iff.mpr member)

/-- **Which types make a registry.** A list is accepted exactly if every type has a role and those
that it lets propagate, no two are of the same class, and every rule leads to the class of one of
them; the registry then finds each type under its class and nothing else. Where some type cannot
follow those before it, the fault is that of the first such type. Only where there is none, the
fault is a rule that leads nowhere; which of them, where there are several, is not said. -/
theorem ofTypes_accepts_exactly (types : List ObjectType) :
    ((∃ registry, ofTypes types = .ok registry) ↔ Sound types ∧ Closed types) ∧
    (∀ registry, ofTypes types = .ok registry → registry.Knows types) ∧
    (¬ Sound types → ∃ fault, FirstFault types fault) ∧
    (∀ fault, FirstFault types fault → ofTypes types = .error fault) ∧
    (Sound types → ∀ fault, ofTypes types = .error fault → Dangling types fault) ∧
    ∀ objectClass relation childClass,
      ofTypes types = .error (.unknownChildClass objectClass relation childClass) →
        Sound types := by
  have made := made_ofTypes types
  refine ⟨⟨?_, ?_⟩, ?_, ?_, ?_, ?_, ?_⟩
  · rintro ⟨registry, result⟩
    rw [result] at made
    cases made with
    | registry sound closed => exact ⟨sound, closed⟩
  · rintro ⟨sound, closed⟩
    generalize ofTypes types = result at made
    cases made with
    | @registry registry => exact ⟨registry, rfl⟩
    | refused first => exact absurd sound first.not_sound
    | leading _ dangling => exact absurd closed dangling.not_closed
  · intro registry result
    rw [result] at made
    cases made with
    | registry _ _ knows => exact knows
  · intro unsound
    generalize ofTypes types = result at made
    cases made with
    | @refused fault first => exact ⟨fault, first⟩
    | registry sound | leading sound => exact absurd sound unsound
  · intro fault first
    generalize ofTypes types = result at made
    cases made with
    | refused found => rw [found.unique first]
    | registry sound | leading sound => exact absurd sound first.not_sound
  · intro sound fault result
    rw [result] at made
    cases made with
    | refused first => exact absurd sound first.not_sound
    | leading _ dangling => exact dangling
  · intro objectClass relation childClass result
    rw [result] at made
    cases made with
    | refused first =>
      generalize kind : RegistryError.unknownChildClass objectClass relation childClass = fault
        at first
      obtain ⟨-, breaks⟩ := first
      cases breaks <;> exact nomatch kind
    | leading sound => exact sound

/-- A tag with a rule that leads to a class nobody knows. -/
def roomTag : ObjectType :=
  ObjectType.withRole { objectClass := .tag } .owner [.read, .write]
    |>.withRule (.inherit "rooms" ⟨"ROOM"⟩)

/-- Three faults at once: a rule that leads nowhere, and a second tag that moreover has no role. -/
def muddledTypes : List ObjectType :=
  [roomTag, ObjectType.withRole { objectClass := .domain } .owner [.read], { objectClass := .tag }]

/-- The booking types make a registry, although some of their rules lead to types that are declared
later. Of the muddled ones the tag without roles is reported; the rule that leads nowhere is only
reported where its tag stands alone. -/
theorem ofTypes_accepts_exactly_muddled :
    (Sound bookingTypes ∧ Closed bookingTypes ∧
      ∃ registry, ofTypes bookingTypes = .ok registry ∧ registry.Knows bookingTypes) ∧
    (¬ Sound muddledTypes ∧ (∃ fault, FirstFault muddledTypes fault) ∧
      FirstFault muddledTypes (.noRoles .tag) ∧ ofTypes muddledTypes = .error (.noRoles .tag)) ∧
    ofTypes [roomTag] = .error (.unknownChildClass .tag "rooms" ⟨"ROOM"⟩) ∧ Sound [roomTag] ∧
      Dangling [roomTag] (.unknownChildClass .tag "rooms" ⟨"ROOM"⟩) := by
  have sound : Sound bookingTypes := by decide +kernel
  have closed : Closed bookingTypes := by decide +kernel
  obtain ⟨accepts, knows, -⟩ := ofTypes_accepts_exactly bookingTypes
  obtain ⟨registry, made⟩ := accepts.mpr ⟨sound, closed⟩
  have unsound : ¬ Sound muddledTypes := by decide +kernel
  have first : FirstFault muddledTypes (.noRoles .tag) :=
    @FirstFault.intro (muddledTypes.take 2) [] _ _ (by decide +kernel) (.noRoles fun _ => rfl)
  obtain ⟨-, -, existsFirst, stops, -⟩ := ofTypes_accepts_exactly muddledTypes
  have leads : ofTypes [roomTag] = .error (.unknownChildClass .tag "rooms" ⟨"ROOM"⟩) := by rfl
  obtain ⟨-, -, -, -, dangles, soundIf⟩ := ofTypes_accepts_exactly [roomTag]
  have soundAlone := soundIf _ _ _ leads
  exact ⟨⟨sound, closed, registry, made, knows registry made⟩,
    ⟨unsound, existsFirst unsound, first, stops _ first⟩, leads, soundAlone,
    dangles soundAlone _ leads⟩

end Registry

end BookingAccess
