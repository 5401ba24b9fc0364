import CustomResource.Kubeconfig.Files
import CustomResource.Text.Pieces

/-!
# A tree of files

Files as they lie in directories. A path is followed name by name, so where it stops being followed
says why nothing is there.

## Main definitions

* `FileTree`: the files and directories.
* `FileTree.Place`: a tree, and the directory from which paths are meant.
* `FileTree.Place.files`: what is at each path.
-/

namespace CustomResource

/-- A file, or a directory of named files and directories. -/
inductive FileTree where
  | file (content : String)
  | directory (entries : List (String × FileTree))
  deriving Inhabited

namespace FileTree

/-- A directory without anything in it. -/
def empty : FileTree := .directory []

/-- The greatest size of a name in bytes. -/
def greatestName : Nat := 255

/-- The greatest size of a path in bytes. -/
def greatestPath : Nat := 4095

/-- Follows some names from a place, which is given with the directories around it. -/
def follow (around : List FileTree) : FileTree → List String → File
  | .file content, [] => .text content
  | .directory _, [] => .directory
  | .file _, _ :: _ => .belowFile
  | .directory entries, name :: names =>
    if name = "" ∨ name = "." then follow around (.directory entries) names
    else if name = ".." then
      match around with
      | [] => follow [] (.directory entries) names
      | parent :: others => follow others parent names
    else if greatestName < name.utf8ByteSize then .tooLong
    else
      match entries.lookup name with
      | some tree => follow (.directory entries :: around) tree names
      | none => .missing

/-- A tree, and the directory from which paths are meant that do not begin with a slash. -/
structure Place where
  root : FileTree
  working : FileTree
  deriving Inhabited

/-- What is at a path. -/
def Place.files (p : Place) : Files := fun path =>
  if path.contains '\x00' then .unnameable
  else if path = "" then .missing
  else if greatestPath < path.utf8ByteSize then .tooLong
  else
    let names := (Text.splitAt '/' path.toList).map String.ofList
    if path.startsWith "/" then follow [] p.root names else follow [p.root] p.working names

end FileTree

end CustomResource
