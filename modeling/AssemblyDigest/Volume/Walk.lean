import AssemblyDigest.Volume.Resolution

/-! # Walking a directory

A walk visits a directory depth first and takes the entries of each directory in the order
of the bytes of their names, files and directories mixed. Links below the start are neither
entered nor counted as files. A directory whose path is too long cannot be opened, and the
first such directory ends the walk.
-/

namespace AssemblyDigest

/-- Whether a name comes before another or is the same, byte by byte. -/
def nameLE (first second : Text) : Bool :=
  decide (Utf8.encode first ≤ Utf8.encode second)

/-- Puts a named value in front of the first one whose name does not come before its own. -/
def insertByName {α : Type} (entry : Text × α) : List (Text × α) → List (Text × α)
  | [] => [entry]
  | other :: rest =>
      if nameLE entry.1 other.1 then entry :: other :: rest
      else other :: insertByName entry rest

/-- Named values in the order of the bytes of their names. -/
def sortByName {α : Type} (entries : List (Text × α)) : List (Text × α) :=
  entries.foldr insertByName []

/-- Inserting an entry adds it and loses none. -/
theorem perm_insertByName {α : Type} (entry : Text × α) (entries : List (Text × α)) :
    (insertByName entry entries).Perm (entry :: entries) := by
  induction entries with
  | nil => exact .refl _
  | cons other rest ih =>
      rw [insertByName]
      split
      · exact .refl _
      · exact (ih.cons other).trans (.swap entry other rest)

/-- Sorting keeps every entry. -/
theorem perm_sortByName {α : Type} (entries : List (Text × α)) :
    (sortByName entries).Perm entries := by
  induction entries with
  | nil => exact .refl _
  | cons entry rest ih => exact (perm_insertByName entry _).trans (ih.cons entry)

/-- The paths found in all branches, one branch after the other, or the first directory that
could not be opened. -/
def gather : List (Text × Except Text (List Text)) → Except Text (List Text)
  | [] => .ok []
  | (_, found) :: rest => do
      let first ← found
      let others ← gather rest
      .ok (first ++ others)

namespace Node

mutual

/-- The paths of the files in a node that itself has the given path, in walk order, or the
path of a directory that could not be opened. -/
def files (path : Text) : Node → Except Text (List Text)
  | .file _ => .ok [path]
  | .link _ => .ok []
  | .directory entries =>
      if Volume.pathLimit ≤ path.byteLength then .error path
      else gather (sortByName (branches path entries))
termination_by structural node => node

/-- The entries of a directory, each with the files in it. -/
def branches (path : Text) : List (Text × Node) → List (Text × Except Text (List Text))
  | [] => []
  | (name, node) :: rest => (name, files (Path.join path name) node) :: branches path rest
termination_by structural entries => entries

end

/-- The branches of a directory are walked one by one, each from its own path. -/
theorem branches_eq_map (path : Text) (entries : List (Text × Node)) :
    branches path entries =
      entries.map fun entry => (entry.1, entry.2.files (Path.join path entry.1)) := by
  induction entries with
  | nil => rfl
  | cons entry rest ih => rw [branches, ih, List.map_cons]

/-- The names of the directories directly in a node, in the order of their bytes. -/
def subdirectories (node : Node) : List Text :=
  ((sortByName node.entries).filter (·.2.isDirectory)).map (·.1)

end Node

/-- The node where a walk from a path starts. A link at the start is followed, but only a
directory is then walked. -/
def Volume.walkStart (volume : Volume) (root : Text) : Except AccessFault Node := do
  match ← volume.find .inspect root with
  | .link target =>
      match ← volume.find .reach root with
      | .directory entries => .ok (.directory entries)
      | _ => .ok (.link target)
  | node => .ok node

end AssemblyDigest
