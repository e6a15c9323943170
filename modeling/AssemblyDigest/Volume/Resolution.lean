import AssemblyDigest.Path
import AssemblyDigest.Utf8
import AssemblyDigest.Volume.Fault
import AssemblyDigest.Volume.Node

/-! # Following paths

A volume is a file tree with a working directory, in which something may keep files from being
read; directories may always be entered and listed. A path is followed element by element:
`.` stays, `..` goes to the parent of the directory reached, a name goes to the entry, and
a link is replaced by the elements of its target. What happens at a link in the last
position, and whether the last name may be missing, depends on the purpose. A path that is
followed to be used must be short; for its canonical form, only that form has to be.
-/

namespace AssemblyDigest

/-- A file tree, the place of its working directory, and what keeps files from being read, such as
a missing permission. -/
structure Volume where
  root : Node
  current : Place
  obstacles : List (Place × AccessFault) := []

/-- What a path is followed for. -/
inductive Purpose where
  /-- To look at what the path names; a link in the last position is not followed. -/
  | inspect
  /-- To reach an existing file or directory through all links. -/
  | reach
  /-- To write a file, whose last name may be missing from its directory. -/
  | create
  /-- To name what the path leads to by its canonical path. -/
  | canonical
  deriving DecidableEq, Repr

namespace Volume

/-- The longest element of a path, in bytes. -/
def nameLimit : Nat := 255

/-- A path must be shorter than this, in bytes. -/
def pathLimit : Nat := 4096

/-- How many links one path may lead through. -/
def linkLimit : Nat := 40

/-- The node at a place. -/
def at? (volume : Volume) (place : Place) : Option Node :=
  volume.root.at? place

/-- What keeps the file at a place from being read. -/
def obstacle? (volume : Volume) (place : Place) : Option AccessFault :=
  volume.obstacles.lookup place

/-- The place where a path starts. -/
def origin (volume : Volume) (path : Text) : Place :=
  if Path.isAbsolute path then [] else volume.current

/-- The absolute path of a place. -/
def pathOf (place : Place) : Text :=
  if place = [] then ['/'] else place.flatMap ('/' :: ·)

/-- Whether an entry of a directory has too long a name, or too long a path where that path
is what is asked for. -/
def exceedsLimit (purpose : Purpose) (here : Place) (name : Text) : Bool :=
  nameLimit < name.byteLength ||
    (purpose = .canonical && pathLimit ≤ (pathOf (here ++ [name])).byteLength)

/-- Follows the elements of a path from a directory; `jump` takes over at a link. An empty
element asks for a directory and otherwise stays where it is. -/
def advance (volume : Volume) (purpose : Purpose)
    (jump : List Text → Place → Except AccessFault Place) :
    List Text → Place → Except AccessFault Place
  | [], here => .ok here
  | name :: rest, here =>
      match volume.at? here with
      | some (.directory entries) =>
          if name = [] ∨ name = ['.'] then advance volume purpose jump rest here
          else if name = ['.', '.'] then advance volume purpose jump rest here.dropLast
          else if purpose = .create ∧ rest = [[]] then .error .isDirectory
          else if exceedsLimit purpose here name then .error .nameTooLong
          else
            match entries.lookup name with
            | none =>
                if purpose = .create ∧ rest = [] then .ok (here ++ [name])
                else .error .notFound
            | some (.link target) =>
                if purpose = .inspect ∧ rest = [] then .ok (here ++ [name])
                else
                  jump (Path.elements target ++ rest)
                    (if Path.isAbsolute target then [] else here)
            | some _ => advance volume purpose jump rest (here ++ [name])
      | _ => .error .notDirectory

/-- Follows the elements of a path through at most the given number of links. -/
def follow (volume : Volume) (purpose : Purpose) :
    Nat → List Text → Place → Except AccessFault Place
  | 0 => advance volume purpose fun _ _ => .error .tooManyLinks
  | links + 1 => advance volume purpose (follow volume purpose links)

/-- The place a path leads to. -/
def resolve (volume : Volume) (purpose : Purpose) (path : Text) : Except AccessFault Place :=
  if '\x00' ∈ path then .error .nulInPath
  else if path = [] then .error .notFound
  else if purpose ≠ .canonical ∧ pathLimit ≤ path.byteLength then .error .nameTooLong
  else volume.follow purpose linkLimit (Path.elements path) (volume.origin path)

/-- The node a path leads to. -/
def find (volume : Volume) (purpose : Purpose) (path : Text) : Except AccessFault Node := do
  let place ← volume.resolve purpose path
  match volume.at? place with
  | some node => .ok node
  | none => .error .notFound

/-- Whether a path leads to a file. -/
def isFile (volume : Volume) (path : Text) : Bool :=
  match volume.find .reach path with
  | .ok node => node.isFile
  | .error _ => false

/-- The absolute path, free of links and dots, of what a path leads to. -/
def canonicalPath (volume : Volume) (path : Text) : Except AccessFault Text :=
  (volume.resolve .canonical path).map pathOf

end Volume

end AssemblyDigest
