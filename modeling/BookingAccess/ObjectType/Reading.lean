/-
**Reading object types from data.**

A type is a record with the fields `class`, `roles`, `propagatable_roles` and `propagation`; only
`class` has to be there. Fields that the type does not have are passed over.

* `ObjectType.ofData?` and `PropagationRule.ofData?` read a type and a rule.
-/

import BookingAccess.Data
import BookingAccess.ObjectType.Basic

namespace BookingAccess

def Role.ofData? (data : Data) : Option Role := data.text?.map Role.mk

def Permission.ofData? (data : Data) : Option Permission := data.text?.map Permission.mk

def ObjectClass.ofData? (data : Data) : Option ObjectClass := data.text?.map ObjectClass.mk

def DependencyKind.ofData? (data : Data) : Option DependencyKind :=
  data.choice? [("cascade", .cascade), ("detach", .detach)]

namespace RolePropagation

/-- The fields of the inheriting mode; without a kind, children can be detached. -/
def inheritOfFields? (fields : List (String × Data)) : Option RolePropagation := do
  let kind ← Data.field? fields "kind" .detach DependencyKind.ofData?
  let substitutes ← Data.field? fields "substitutes" ∅ (Data.map? Role.mk Role.ofData?)
  return .inherit kind substitutes

/-- The field `mode` says which mode it is, and which fields belong to it. In a list the mode comes
first; the referring mode has no fields, so nothing may follow it. -/
def ofData? : Data → Option RolePropagation
  | .record fields => do
    match ← Data.required? fields "mode" Data.text? with
    | "inherit" => inheritOfFields? fields
    | "reference" => return .reference
    | _ => none
  | .list (mode :: rest) => do
    match ← mode.text? with
    | "inherit" => inheritOfFields? (← Data.record? .refused ["kind", "substitutes"] (.list rest))
    | "reference" => if rest.isEmpty then return .reference else none
    | _ => none
  | _ => none

end RolePropagation

def PropagationRule.ofData? (surplus : Data.Surplus) (data : Data) : Option PropagationRule := do
  let fields ← data.record? surplus ["relation", "child_class", "roles"]
  return {
    relation := ← Data.required? fields "relation" Data.text?
    childClass := ← Data.required? fields "child_class" ObjectClass.ofData?
    roles := ← Data.required? fields "roles" RolePropagation.ofData? }

def ObjectType.ofData? (surplus : Data.Surplus) (data : Data) : Option ObjectType := do
  let fields ← data.record? surplus ["class", "roles", "propagatable_roles", "propagation"]
  return {
    objectClass := ← Data.required? fields "class" ObjectClass.ofData?
    roles := ← Data.field? fields "roles" ∅ (Data.map? Role.mk (Data.set? Permission.ofData?))
    propagatable :=
      ← Data.field? fields "propagatable_roles" none (Data.optional? (Data.set? Role.ofData?))
    rules := ← Data.field? fields "propagation" [] (Data.list? (PropagationRule.ofData? surplus)) }

end BookingAccess
