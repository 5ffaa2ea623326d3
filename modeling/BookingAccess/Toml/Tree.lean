/-
**The tree of tables.**

Keys and headers of a document name places in a tree of tables. A table comes into being in one of
three ways: its own header defines it, the header of a table inside it implies it, or a dotted key
does. A value closes its place.

* `Tree.assign?`: the assignment of a value to a key, which may be dotted;
* `Tree.define?`: the change of the place that a header names.
-/

import BookingAccess.Data

namespace BookingAccess.Toml

/-- How a table came into being. -/
inductive Origin
  /-- By a header of its own. -/
  | header
  /-- By the header of a table inside it. -/
  | implied
  /-- By a dotted key. -/
  | dotted
deriving DecidableEq

inductive Node
  | value (data : Data)
  | table (origin : Origin) (fields : List (String × Node))
  /-- The tables that headers in double brackets define, one each. -/
  | tables (items : List (List (String × Node)))

abbrev Tree := List (String × Node)

mutual

def Node.toData : Node → Data
  | .value data => data
  | .table _ fields => .record (fieldsToData fields)
  | .tables items => .list (itemsToData items)

def fieldsToData : List (String × Node) → List (String × Data)
  | [] => []
  | (name, node) :: fields => (name, node.toData) :: fieldsToData fields

def itemsToData : List (List (String × Node)) → List Data
  | [] => []
  | fields :: items => .record (fieldsToData fields) :: itemsToData items

end

namespace Tree

def toData (tree : Tree) : Data := .record (fieldsToData tree)

/-- With a node at this name, in the place of the one that was there. -/
def put (tree : Tree) (name : String) (node : Node) : Tree :=
  if (tree.lookup name).isSome then
    tree.map fun (other, old) => (other, if other == name then node else old)
  else tree ++ [(name, node)]

/-- Change the last one of the items. -/
def changeLast? (change : Tree → Option Tree) : List Tree → Option (List Tree)
  | [] => none
  | [last] => (change last).map ([·])
  | item :: items => (changeLast? change items).map (item :: ·)

/-- Assign a value to a key. Every part of a dotted key but the last names a table that dotted keys
made, or one that a header implied; the last part must be new, and only a dotted key adds to a
table that a dotted key made. `open` says whether the table at hand takes the last part. -/
def assign? (isOpen : Bool) (value : Data) : List String → Tree → Option Tree
  | [], _ => none
  | [name], tree =>
    if isOpen && (tree.lookup name).isNone then some (tree.put name (.value value)) else none
  | name :: path, tree =>
    match tree.lookup name with
    | none => (assign? true value path []).map fun fields => tree.put name (.table .dotted fields)
    | some (.value _) => none
    | some (.table .header _) => none
    | some (.table origin fields) =>
      (assign? (origin == .dotted) value path fields).map fun fields =>
        tree.put name (.table origin fields)
    | some (.tables items) =>
      (changeLast? (assign? false value path) items).map fun items => tree.put name (.tables items)

/-- Change the place that the key of a header names. Tables on the way there are implied where they
do not exist; of tables in a list the last one is meant. -/
def define? (change : Option Node → Option Node) : List String → Tree → Option Tree
  | [], _ => none
  | [name], tree => (change (tree.lookup name)).map (tree.put name)
  | name :: path, tree =>
    match tree.lookup name with
    | none => (define? change path []).map fun fields => tree.put name (.table .implied fields)
    | some (.value _) => none
    | some (.table origin fields) =>
      (define? change path fields).map fun fields => tree.put name (.table origin fields)
    | some (.tables items) =>
      (changeLast? (define? change path) items).map fun items => tree.put name (.tables items)

/-- The tree with one assignment after another. -/
def assignAll? (tree : Tree) (assignments : List (List String × Data)) : Option Tree :=
  assignments.foldlM (fun tree (key, value) => assign? true value key tree) tree

end Tree

end BookingAccess.Toml
