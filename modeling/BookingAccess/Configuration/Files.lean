/-
**Files and paths.**

Whoever reads a configuration only asks for the content of the file with a given path; `Files`
answers that, or says why the file cannot be read. A `FileTree` answers it from the directories and
files that it holds: the names of a path are followed one by one from the root, or from the
directory in which a relative path starts. Whatever the names in front lead to has to be a directory
before the next name is looked at, so of several faults of a path the leftmost one is reported.

* `FileFault.message`: the wording of the faults;
* `FileTree.files`: the files of a tree.
-/

namespace BookingAccess

/-- Why a file cannot be read. -/
inductive FileFault
  | missing
  | directory
  /-- A name in front of the last one does not lead to a directory. -/
  | notDirectory
  | nameTooLong
  | nulInName
  /-- The content is not text in UTF-8. -/
  | notText
  | other (cause : String)
deriving DecidableEq

def FileFault.message : FileFault → String
  | .missing => "No such file or directory (os error 2)"
  | .directory => "Is a directory (os error 21)"
  | .notDirectory => "Not a directory (os error 20)"
  | .nameTooLong => "File name too long (os error 36)"
  | .nulInName => "file name contained an unexpected NUL byte"
  | .notText => "stream did not contain valid UTF-8"
  | .other cause => cause

/-- The content of the files that can be read. -/
abbrev Files := String → Except FileFault String

/-- A file, or a directory with its entries. -/
inductive FileTree
  | file (content : String)
  | directory (entries : List (String × FileTree))

namespace FileTree

/-- How many bytes a name may have. -/
def nameLimit : Nat := 255

/-- How many bytes a path may have. -/
def pathLimit : Nat := 4095

/-- The tree to which some names lead from a tree, where `above` holds the directories in which it
lies, innermost first. An empty name stands where slashes follow each other or end the path; like
the name of the directory itself it leads nowhere else, but only a directory can have it. The root
is its own parent. -/
def follow : FileTree → (above : List FileTree) → List String → Except FileFault FileTree
  | tree, _, [] => .ok tree
  | .file _, _, _ :: _ => .error .notDirectory
  | .directory entries, above, "" :: names => follow (.directory entries) above names
  | .directory entries, above, "." :: names => follow (.directory entries) above names
  | .directory entries, [], ".." :: names => follow (.directory entries) [] names
  | .directory _, parent :: above, ".." :: names => follow parent above names
  | .directory entries, above, name :: names =>
    if nameLimit < name.utf8ByteSize then .error .nameTooLong
    else
      match entries.lookup name with
      | none => .error .missing
      | some entry => follow entry (.directory entries :: above) names

/-- The tree that a path leads to; `start` holds the names that lead to the directory in which a
relative path starts. -/
def find (tree : FileTree) (start : List String) (path : String) : Except FileFault FileTree :=
  if path.contains '\x00' then .error .nulInName
  else if path.isEmpty then .error .missing
  else if pathLimit < path.utf8ByteSize then .error .nameTooLong
  else
    let names := path.splitOn "/"
    tree.follow [] (if path.startsWith "/" then names else start ++ names)

def files (tree : FileTree) (start : List String) : Files := fun path => do
  match ← tree.find start path with
  | .file content => return content
  | .directory _ => throw .directory

end FileTree

end BookingAccess
