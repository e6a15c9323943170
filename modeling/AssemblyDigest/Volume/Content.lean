import AssemblyDigest.Volume.Resolution

/-! # Reading and changing a volume

Files are read as bytes or as UTF-8 text, unless something keeps them from being read. That a file
is there is seen even so, and it can be written. Every change names its target by a path and leaves
all other places alone.
-/

namespace AssemblyDigest

namespace Volume

/-- The bytes of the file a path leads to, if nothing keeps it from being read. -/
def read (volume : Volume) (path : Text) : Except AccessFault Bytes := do
  let place ← volume.resolve .reach path
  match volume.at? place, volume.obstacle? place with
  | some (.file _), some cause => .error cause
  | some (.file bytes), none => .ok bytes
  | some _, _ => .error .isDirectory
  | none, _ => .error .notFound

/-- The text of the file a path leads to, which must be UTF-8. -/
def readText (volume : Volume) (path : Text) : Except AccessFault Text := do
  match Utf8.decode? (← volume.read path) with
  | some text => .ok text
  | none => .error .notUtf8

/-- The volume with a node put at a place. -/
def insert (volume : Volume) (place : Place) (node : Node) : Volume :=
  { volume with root := Node.insert node place volume.root }

/-- The place of the file that writing to a path creates or replaces. -/
def outputPlace (volume : Volume) (path : Text) : Except AccessFault Place := do
  let place ← volume.resolve .create path
  match volume.at? place with
  | some (.directory _) => .error .isDirectory
  | _ => .ok place

/-- Writes a file, which is created if it is missing and replaced if it exists. -/
def write (volume : Volume) (path : Text) (bytes : Bytes) : Except AccessFault Volume := do
  let place ← volume.outputPlace path
  .ok (volume.insert place (.file bytes))

/-- Makes the directories that are missing along the names below a path. A directory is not
made in the place of anything else, nor through a link without a target. -/
def makeDirectoriesBelow (volume : Volume) (path : Text) :
    List Text → Except AccessFault Volume
  | [] => .ok volume
  | name :: rest =>
      let next := Path.join path name
      match volume.find .reach next, volume.resolve .inspect next with
      | .ok (.directory _), _ => makeDirectoriesBelow volume next rest
      | .ok _, _ => .error .notDirectory
      | .error _, .ok _ => .error .notDirectory
      | .error _, .error _ => do
          let place ← volume.resolve .create next
          makeDirectoriesBelow (volume.insert place .emptyDirectory) next rest

/-- The part of a path before its elements. -/
def stem (path : Text) : Text :=
  if Path.isAbsolute path then ['/'] else []

/-- Makes a directory and those above it that are missing. -/
def makeDirectory (volume : Volume) (path : Text) : Except AccessFault Volume :=
  volume.makeDirectoriesBelow (stem path) ((Path.elements path).filter (· ≠ []))

/-- Makes the directories above a path that are missing. -/
def makeParents (volume : Volume) (path : Text) : Except AccessFault Volume :=
  volume.makeDirectoriesBelow (stem path) ((Path.elements path).filter (· ≠ [])).dropLast

/-- Writes a file and makes the directories above it. -/
def addFile (volume : Volume) (path : Text) (bytes : Bytes) : Except AccessFault Volume := do
  (← volume.makeParents path).write path bytes

/-- Makes a link and the directories above it. -/
def addLink (volume : Volume) (path target : Text) : Except AccessFault Volume := do
  let volume ← volume.makeParents path
  let place ←
    match volume.resolve .inspect path with
    | .ok place => .ok place
    | .error _ => volume.resolve .create path
  .ok (volume.insert place (.link target))

/-- Removes the file, link or directory that a path names, and what kept the files in it from being
read. -/
def remove (volume : Volume) (path : Text) : Except AccessFault Volume := do
  let place ← volume.resolve .inspect path
  .ok { volume with
    root := volume.root.erase place
    obstacles := volume.obstacles.filter fun obstacle => !place.isPrefixOf obstacle.1 }

/-- The volume in which something keeps the file at a place from being read. -/
def obstruct (volume : Volume) (place : Place) (cause : AccessFault) : Volume :=
  { volume with obstacles := (place, cause) :: volume.obstacles }

end Volume

end AssemblyDigest
