/-
**TOML documents.**

A document is a list of statements, one a line: assignments, and headers that say which table the
assignments below them belong to. The assignments above the first header belong to the root.

* `Toml.read?`: the data that a document writes, if it is one.
-/

import BookingAccess.Toml.Value

namespace BookingAccess.Toml

inductive Statement
  | assignment (key : List String) (value : Data)
  /-- A header in single brackets, which defines one table. -/
  | table (key : List String)
  /-- A header in double brackets, which adds a table to a list. -/
  | item (key : List String)

/-! ### Reading statements -/

/-- The statement on a line, which starts with neither spaces nor a comment. -/
def statement? : List Char → Option (Statement × List Char)
  | '[' :: '[' :: rest => do
    let (key, rest) ← key? rest
    match rest with
    | ']' :: ']' :: rest => return (.item key, rest)
    | _ => none
  | '[' :: rest => do
    let (key, rest) ← key? rest
    match rest with
    | ']' :: rest => return (.table key, rest)
    | _ => none
  | chars => (assignment? value? chars).map fun ((key, value), rest) =>
      (.assignment key value, rest)

/-- The statements, no more than a number of lines. -/
def lines? : Nat → List Char → Option (List Statement)
  | 0, _ => none
  | lines + 1, chars =>
    match skipSpaces chars with
    | [] => some []
    | chars =>
      match endOfLine? chars with
      | some rest => lines? lines rest
      | none => do
        let (statement, rest) ← statement? chars
        return statement :: (← lines? lines (← endOfLine? rest))

/-- A document may start with a mark of its byte order. -/
def skipByteOrderMark : List Char → List Char
  | '\uFEFF' :: rest => rest
  | chars => chars

/-- The statements of a document. Each line takes a character, except for the last one. -/
def statements? (text : String) : Option (List Statement) :=
  lines? (text.length + 1) (skipByteOrderMark text.toList)

/-! ### Putting them together -/

/-- A header with the assignments below it. -/
structure Section where
  isItem : Bool
  key : List String
  assignments : List (List String × Data) := []

/-- The assignments of the root, and the sections behind them. -/
def sections : List Statement → List (List String × Data) × List Section
  | [] => ([], [])
  | statement :: statements =>
    let (assignments, later) := sections statements
    match statement with
    | .assignment key value => ((key, value) :: assignments, later)
    | .table key => ([], ⟨false, key, assignments⟩ :: later)
    | .item key => ([], ⟨true, key, assignments⟩ :: later)

/-- What a section makes of the place that its header names. A table must be new there, or have
been implied so far; an item goes behind the items that are there. -/
def Section.change (part : Section) (node : Option Node) : Option Node :=
  let fill := fun (tree : Tree) => tree.assignAll? part.assignments
  if part.isItem then
    match node with
    | none => (fill []).map fun fields => .tables [fields]
    | some (.tables items) => (fill []).map fun fields => .tables (items ++ [fields])
    | _ => none
  else
    match node with
    | none => (fill []).map (.table .header)
    | some (.table .implied fields) => (fill fields).map (.table .header)
    | _ => none

/-- The tree that the statements describe, if none of them contradicts an earlier one. -/
def tree? (statements : List Statement) : Option Tree := do
  let (assignments, parts) := sections statements
  let root ← Tree.assignAll? [] assignments
  parts.foldlM (fun (tree : Tree) part => tree.define? part.change part.key) root

/-- The data that a document writes. -/
def read? (text : String) : Option Data := do
  let tree ← tree? (← statements? text)
  return tree.toData

end BookingAccess.Toml
