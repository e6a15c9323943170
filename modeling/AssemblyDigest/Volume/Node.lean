import AssemblyDigest.Text

/-! # File trees

A node is a file with its bytes, a symbolic link with its target text, or a directory of
named nodes. A place is the list of names that leads from the top of a tree to a node
through directories only, so a place never passes through a link.
-/

namespace AssemblyDigest

/-- A file, a symbolic link or a directory. -/
inductive Node where
  | file (bytes : Bytes)
  | link (target : Text)
  | directory (entries : List (Text × Node))

/-- The names from the top of a tree down to a node. -/
abbrev Place := List Text

namespace Node

/-- The directory without entries. -/
def emptyDirectory : Node := .directory []

/-- Whether a node is a directory. -/
def isDirectory : Node → Bool
  | .directory _ => true
  | _ => false

/-- Whether a node is a file. -/
def isFile : Node → Bool
  | .file _ => true
  | _ => false

/-- The entries of a directory; other nodes have none. -/
def entries : Node → List (Text × Node)
  | .directory entries => entries
  | _ => []

/-- The node at a place. -/
def at? : Node → Place → Option Node
  | node, [] => some node
  | .directory entries, name :: rest => (entries.lookup name).bind (·.at? rest)
  | _, _ :: _ => none

/-- Changes the entry of a name, or adds one at the end if the name has none. -/
def setEntry (name : Text) (change : Option Node → Node) :
    List (Text × Node) → List (Text × Node)
  | [] => [(name, change none)]
  | (other, node) :: rest =>
      if other = name then (other, change (some node)) :: rest
      else (other, node) :: setEntry name change rest

/-- Puts a node at a place. Directories that are missing on the way are made; where
something else stands on the way, nothing changes. -/
def insert (new : Node) : Place → Node → Node
  | [], _ => new
  | name :: rest, .directory entries =>
      .directory (setEntry name (fun old => insert new rest (old.getD emptyDirectory)) entries)
  | _ :: _, node => node

/-- Removes the node at a place, if there is one. -/
def erase : Place → Node → Node
  | [name], .directory entries => .directory (entries.filter (·.1 ≠ name))
  | name :: rest, .directory entries =>
      .directory (entries.map fun entry =>
        if entry.1 = name then (entry.1, erase rest entry.2) else entry)
  | _, node => node

end Node

end AssemblyDigest
