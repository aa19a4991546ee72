import RefScript.Program.FileProblem

namespace RefScript

/-!
# File trees

Files held in memory, read by path with the rules of a Unix system: a path is
followed name by name, from the root if it starts with a slash and from the
working directory otherwise, and the first name that cannot be followed decides
the problem. A trailing slash, like a dot, stands for the directory reached.
-/

/-- A file or a directory. -/
inductive FileNode where
  | file (contents : ByteArray)
  | directory (entries : List (String × FileNode))

/-- What can be read at a node. -/
def FileNode.contents : FileNode → Except FileProblem ByteArray
  | .file contents => .ok contents
  | .directory _ => .error .isADirectory

/-- A node of a tree, with the way back to the root. -/
structure FileSpot where
  node : FileNode
  /-- The directories above the node, the nearest first. -/
  above : List FileNode

namespace FileSpot

/-- The greatest length of a name, in bytes. -/
def maxNameBytes : Nat :=
  255

/-- One directory up; the root is above itself. -/
def parent (spot : FileSpot) : FileSpot :=
  match spot.above with
  | [] => spot
  | nearest :: further => ⟨nearest, further⟩

/-- Follow a name, which only a directory allows. -/
def enter (spot : FileSpot) (name : String) : Except FileProblem FileSpot :=
  match spot.node with
  | .file _ => .error .notADirectory
  | .directory entries =>
      if name = "" ∨ name = "." then
        .ok spot
      else if name = ".." then
        .ok spot.parent
      else if maxNameBytes < name.utf8ByteSize then
        .error .nameTooLong
      else
        match entries.lookup name with
        | none => .error .missing
        | some entry => .ok ⟨entry, spot.node :: spot.above⟩

/-- Follow names, one after the other. -/
def follow (spot : FileSpot) (names : List String) : Except FileProblem FileSpot :=
  names.foldlM enter spot

end FileSpot

/-- A tree of files, seen from a working directory. -/
structure FileTree where
  /-- The directory at which absolute paths start. -/
  root : FileNode
  /-- The directory at which other paths start. -/
  working : FileSpot

namespace FileTree

/-- The least length of a path that is too long, in bytes. -/
def tooLongPathBytes : Nat :=
  4096

/-- The names in a path, which slashes separate. -/
def namesOf (path : String) : List String :=
  (path.toList.splitOn '/').map String.ofList

/-- Where a path starts. -/
def start (tree : FileTree) (path : String) : FileSpot :=
  if path.toList.head? = some '/' then ⟨tree.root, []⟩ else tree.working

/-- Where a path leads. -/
def spot (tree : FileTree) (path : String) : Except FileProblem FileSpot :=
  if path.isEmpty then
    .error .missing
  else if tooLongPathBytes ≤ path.utf8ByteSize then
    .error .nameTooLong
  else
    (tree.start path).follow (namesOf path)

/-- Read the file at a path. -/
def read (tree : FileTree) (path : String) : Except FileProblem ByteArray := do
  let spot ← tree.spot path
  spot.node.contents

end FileTree

end RefScript
