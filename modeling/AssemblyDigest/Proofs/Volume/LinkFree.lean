import AssemblyDigest.Proofs.Volume.Written

/-! # Volumes without links

Without links a path leads where its names say: proper names are entered one after the other
(`AssemblyDigest.Volume.Way.after_names`), and a last name that leads to a file is one of them
(`AssemblyDigest.Volume.Way.eq_of_file_at_name`), even if it could have been `.` or `..`. So the
canonical path of a place leads back to the place, and a name joined to it to the entry of that
name.
-/

namespace AssemblyDigest

namespace Node

/-- Trees in which no link stands. -/
def LinkFree (node : Node) : Prop :=
  ∀ place target, node.at? place ≠ some (.link target)

theorem linkFree_file (bytes : Bytes) : (file bytes).LinkFree := by
  intro place target stands
  cases place <;> cases stands

/-- What stands in a directory with a single entry has no links if the entry has none. -/
theorem linkFree_single {name : Text} {child : Node} (linkFree : child.LinkFree) :
    (directory [(name, child)]).LinkFree := by
  intro place target stands
  cases place with
  | nil => cases stands
  | cons other place => exact linkFree place target (at?_of_single stands)

namespace Rewritten

variable {before after : Node} {bytes : Bytes}

/-- Writing a file makes no link. -/
theorem linkFree {place : Place} (rewritten : Rewritten before after place bytes)
    (linkFree : before.LinkFree) : after.LinkFree := by
  intro other target stands
  apply linkFree other target
  rw [← kindAt_eq_link_iff] at stands ⊢
  exact (rewritten.kindAt_iff (by simp) other).mp stands

/-- What changes below a place changes in the tree that stands there. -/
theorem below {place rest : Place} (rewritten : Rewritten before after (place ++ rest) bytes)
    {first second : Node} (stands : before.at? place = some first)
    (standsAfter : after.at? place = some second) : Rewritten first second rest bytes where
  free := by
    have free := rewritten.free
    rwa [at?_append, stands, Option.bind_some] at free
  written := by
    have written := rewritten.written
    rwa [at?_append, standsAfter, Option.bind_some] at written
  others := by
    intro other different
    have same := rewritten.others (place ++ other) fun same =>
      different (List.append_cancel_left same)
    rwa [surfaceAt, surfaceAt, at?_append, at?_append, stands, standsAfter, Option.bind_some,
      Option.bind_some] at same

end Rewritten

end Node

namespace Volume

/-- Volumes in whose tree no link stands. -/
def LinkFree (volume : Volume) : Prop :=
  volume.root.LinkFree

variable {volume : Volume} {here target : Place} {name : Text}

/-- No entry of a directory is a link. -/
theorem LinkFree.lookup_ne (linkFree : volume.LinkFree) {entries : List (Text × Node)}
    (directory : volume.at? here = some (.directory entries)) (aim : Text) :
    entries.lookup name ≠ some (.link aim) := fun found =>
  linkFree _ aim (at?_append_name directory found)

/-- Without links, proper names are entered one after the other. -/
theorem Way.after_names (linkFree : volume.LinkFree) {purpose : Purpose} {links : Nat}
    {names : Place} (proper : ProperPlace names) {rest : List Text}
    (way : Way volume purpose links (names ++ rest) here target) :
    Way volume purpose links rest (here ++ names) target := by
  induction names generalizing here with
  | nil => rwa [List.append_nil]
  | cons name names ih =>
      have assoc : here ++ name :: names = here ++ [name] ++ names := by
        rw [List.append_assoc, List.singleton_append]
      rw [List.cons_append] at way
      generalize same : names ++ rest = elements at way
      rw [assoc]
      cases way with
      | stay directory dot way =>
          exact (dot.elim proper.head.nonempty proper.head.notHere).elim
      | parent directory way => exact (proper.head.notParent rfl).elim
      | enter directory passable found plain way => exact ih proper.tail (same ▸ way)
      | jump directory passable found through way =>
          exact (linkFree.lookup_ne directory _ found).elim
      | link directory passable found inspecting =>
          exact (linkFree.lookup_ne directory _ found).elim
      | missing directory passable absent creating =>
          obtain ⟨rfl, rfl⟩ := List.append_eq_nil_iff.mp same
          rw [List.append_nil]
          exact .done links _

/-- Without links, a name that leads to a file leads to the entry of that name. -/
theorem Way.eq_of_file_at_name (linkFree : volume.LinkFree) {links : Nat} (nonempty : name ≠ [])
    (way : Way volume .reach links [name] here target) {bytes : Bytes}
    (file : volume.at? target = some (.file bytes)) : target = here ++ [name] := by
  cases way with
  | stay directory dot way =>
      cases way
      rw [directory] at file
      cases file
  | parent directory way =>
      cases way
      obtain ⟨others, parent⟩ := exists_directory_dropLast directory
      rw [parent] at file
      cases file
  | enter directory passable found plain way =>
      cases way
      rfl
  | jump directory passable found through way =>
      exact (linkFree.lookup_ne directory _ found).elim
  | link directory passable found inspecting => cases inspecting
  | missing directory passable absent creating => cases creating

theorem isAbsolute_pathOf (place : Place) : Path.isAbsolute (pathOf place) = true := by
  cases place <;> rfl

/-- The names of the path of a place are those of the place. -/
theorem names_pathOf {place : Place} (proper : ProperPlace place) :
    Path.names (pathOf place) = place := by
  have following : ∀ first : Text,
      Path.names (first ++ place.flatMap ('/' :: ·)) = Path.names first ++ place := by
    induction place with
    | nil => intro first; rw [List.flatMap_nil, List.append_nil, List.append_nil]
    | cons name place ih =>
        intro first
        rw [List.flatMap_cons, List.cons_append, Path.names_append_cons, ih proper.tail,
          proper.head.names_eq, List.singleton_append]
  unfold pathOf
  split
  · next empty =>
      rw [empty]
      rfl
  · exact following []

/-- A name joined to an absolute path is followed after the names of that path. -/
theorem resolve_join_eq_ok {purpose : Purpose} {base : Text}
    (absolute : Path.isAbsolute base = true) (nonempty : name ≠ []) (noSeparator : '/' ∉ name)
    (resolved : volume.resolve purpose (Path.join base name) = .ok target) :
    Way volume purpose linkLimit (Path.names base ++ [name]) [] target := by
  obtain ⟨-, -, -, way⟩ := resolve_eq_ok_iff.mp resolved
  rwa [Path.elements_join nonempty noSeparator, origin,
    if_pos (Path.isAbsolute_join absolute name)] at way

namespace LinkFree

variable (linkFree : volume.LinkFree) {place : Place}

include linkFree

/-- The path of a place leads to that place. -/
theorem eq_of_resolve_pathOf (proper : ProperPlace place)
    (resolved : volume.resolve .reach (pathOf place) = .ok target) : target = place := by
  obtain ⟨-, -, -, way⟩ := resolve_eq_ok_iff.mp resolved
  obtain ⟨rest, ending, elements⟩ := Path.exists_ending (pathOf place)
  rw [elements, names_pathOf proper, origin, if_pos (isAbsolute_pathOf place)] at way
  exact ((way.after_names linkFree proper).eq_of_done ending).symm

/-- A proper name joined to the path of a place leads to the entry of that name. -/
theorem eq_of_resolve_join (proper : ProperPlace place) (properName : ProperName name)
    {purpose : Purpose}
    (resolved : volume.resolve purpose (Path.join (pathOf place) name) = .ok target) :
    target = place ++ [name] := by
  have way := resolve_join_eq_ok (isAbsolute_pathOf place) properName.nonempty
    properName.noSeparator resolved
  rw [names_pathOf proper, ← List.append_nil (place ++ [name])] at way
  have properBelow : ProperPlace (place ++ [name]) :=
    proper.append (List.forall_mem_singleton.mpr properName)
  cases way.after_names linkFree properBelow
  rfl

/-- A file that a name below the path of a place leads to is the entry of that name. -/
theorem eq_of_resolve_file (proper : ProperPlace place) {rest : Place}
    (properRest : ProperPlace rest) (nonempty : name ≠ []) (noSeparator : '/' ∉ name)
    (resolved : volume.resolve .reach (Path.join (Path.below (pathOf place) rest) name) =
      .ok target) {bytes : Bytes} (file : volume.at? target = some (.file bytes)) :
    target = place ++ rest ++ [name] := by
  have way := resolve_join_eq_ok (Path.isAbsolute_below (isAbsolute_pathOf place) rest) nonempty
    noSeparator resolved
  rw [Path.names_below properRest, names_pathOf proper] at way
  exact (way.after_names linkFree (proper.append properRest)).eq_of_file_at_name linkFree nonempty
    file

end LinkFree

end Volume

end AssemblyDigest
