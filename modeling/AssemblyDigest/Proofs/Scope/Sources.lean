import AssemblyDigest.Proofs.Volume.Enumeration
import AssemblyDigest.Proofs.Volume.Reading
import AssemblyDigest.Proofs.Volume.WalkStart
import AssemblyDigest.Scope.Search

/-! # The source files of a workspace

In a well-formed volume the source files below a root are the files with the extension that
lie in the tree the root leads to, each once and in the order of their names
(`AssemblyDigest.Scope.SourceListing`). The enumeration fails only if the root leads nowhere
or if some directory has too long a path, and then names the first such directory
(`AssemblyDigest.Scope.sources_of_directory`). In particular a file that lies behind a link
below the root is never enumerated.
-/

namespace AssemblyDigest

namespace Scope

variable {volume : Volume} {root extension : Text}

/-- What the enumeration of source files in a tree with the path `root` promises. -/
structure SourceListing (start : Node) (root extension : Text) (paths : List Text) : Prop where
  /-- The paths are those of the files in the tree that have the extension. -/
  mem_iff : ∀ path, path ∈ paths ↔ ∃ place bytes, start.at? place = some (.file bytes) ∧
    Path.below root place = path ∧ extension <:+ path
  /-- No path comes up twice. -/
  nodup : paths.Nodup
  /-- The paths are in increasing order, name by name and each name byte by byte. -/
  increasing : paths.Pairwise fun first second =>
    Place.Before (Path.names first) (Path.names second)
  /-- No path leads to a link of the tree or through one. -/
  noLink : ∀ place target rest, start.at? place = some (.link target) → ProperPlace rest →
    Path.below root (place ++ rest) ∉ paths

/-- An extension is a suffix of the path text. -/
theorem hasExtension_iff (extension path : Text) :
    hasExtension extension path = true ↔ extension <:+ path :=
  List.isSuffixOf_iff_suffix

/-- The paths of the files of a tree are in increasing order, name by name. -/
theorem pairwise_names_of_listing {start : Node} (wellFormed : start.WellFormed)
    {places : List Place} (listing : start.Listing places) (root : Text) :
    (places.map (Path.below root)).Pairwise fun first second =>
      Place.Before (Path.names first) (Path.names second) := by
  have proper : ∀ place ∈ places, ProperPlace place := by
    intro place member
    obtain ⟨bytes, leads⟩ := (listing.mem_iff place).mp member
    exact (wellFormed.at? leads).2
  refine List.pairwise_map.mpr (listing.ordered.imp_of_mem ?_)
  intro first second firstMember secondMember before
  rw [Path.names_below (proper first firstMember), Path.names_below (proper second secondMember)]
  exact (Place.before_append_left _ _ _).mpr before

/-- The paths that are kept are those of the files with the extension. -/
theorem mem_filter_of_listing {start : Node} {places : List Place}
    (listing : start.Listing places) (root extension path : Text) :
    path ∈ (places.map (Path.below root)).filter (hasExtension extension) ↔
      ∃ place bytes, start.at? place = some (.file bytes) ∧ Path.below root place = path ∧
        extension <:+ path := by
  rw [List.mem_filter, hasExtension_iff, List.mem_map]
  constructor
  · rintro ⟨⟨place, member, rfl⟩, suffix⟩
    obtain ⟨bytes, leads⟩ := (listing.mem_iff place).mp member
    exact ⟨place, bytes, leads, rfl, suffix⟩
  · rintro ⟨place, bytes, leads, rfl, suffix⟩
    exact ⟨⟨place, (listing.mem_iff place).mpr ⟨bytes, leads⟩, rfl⟩, suffix⟩

/-- What a walk of a well-formed tree finds, restricted to an extension, is as promised. -/
theorem sourceListing_of_files {start : Node} (wellFormed : start.WellFormed)
    {found : List Text} (walked : start.files root = .ok found) :
    SourceListing start root extension (found.filter (hasExtension extension)) := by
  obtain ⟨places, listing, listed⟩ :=
    wellFormed.exists_listing root ((wellFormed.openable_iff root).mpr ⟨found, walked⟩)
  rw [walked] at listed
  obtain rfl := Except.ok.inj listed
  have increasing :=
    (pairwise_names_of_listing wellFormed listing root).filter (hasExtension extension)
  refine ⟨mem_filter_of_listing listing root extension, ?_, increasing, ?_⟩
  · refine increasing.imp ?_
    intro first second before same
    exact Place.before_irrefl _ (same ▸ before)
  · intro place target rest linked properRest member
    obtain ⟨other, bytes, leads, paths, -⟩ :=
      (mem_filter_of_listing listing root extension _).mp member
    have properBelow : ProperPlace (place ++ rest) :=
      (wellFormed.at? linked).2.append properRest
    obtain rfl := Path.below_injective (wellFormed.at? leads).2 properBelow paths
    rw [Node.at?_append, linked, Option.bind_some] at leads
    cases rest <;> cases leads

theorem start_eq_ok {start : Node} (started : volume.walkStart root = .ok start) :
    Scope.start volume root = .ok start := by
  rw [Scope.start, started]
  rfl

/-- A walk that ends well keeps the wanted files. -/
theorem walk_eq_ok {start : Node} (started : volume.walkStart root = .ok start)
    {found : List Text} (walked : start.files root = .ok found) (wanted : Text → Bool) :
    walk volume root wanted = .ok (found.filter wanted) := by
  rw [walk, start_eq_ok started]
  simp only [walked, bind, Except.bind]
  rfl

/-- A walk that ends early reports the path that is too long. -/
theorem walk_eq_error {start : Node} (started : volume.walkStart root = .ok start)
    {long : Text} (failed : start.files root = .error long) (wanted : Text → Bool) :
    walk volume root wanted = .error (.walk long .nameTooLong) := by
  rw [walk, start_eq_ok started]
  simp only [failed, bind, Except.bind]
  rfl

/-- An enumeration that succeeds has walked a tree. -/
theorem exists_of_sources {found : List Text}
    (listed : sources volume root extension = .ok found) :
    ∃ start walked, volume.walkStart root = .ok start ∧ start.files root = .ok walked ∧
      found = walked.filter (hasExtension extension) := by
  cases started : volume.walkStart root with
  | error cause =>
      rw [sources, walk, Scope.start, started] at listed
      cases listed
  | ok start =>
      cases walked : start.files root with
      | error long =>
          rw [sources, walk_eq_error started walked] at listed
          cases listed
      | ok paths =>
          rw [sources, walk_eq_ok started walked] at listed
          exact ⟨start, paths, rfl, walked, (Except.ok.inj listed).symm⟩

/-- The source files of a well-formed volume are enumerated as promised whenever the
enumeration succeeds. -/
theorem sourceListing_of_sources (wellFormed : volume.WellFormed) {found : List Text}
    (listed : sources volume root extension = .ok found) :
    ∃ start, volume.walkStart root = .ok start ∧ SourceListing start root extension found := by
  obtain ⟨start, walked, started, files, rfl⟩ := exists_of_sources listed
  exact ⟨start, started, sourceListing_of_files (wellFormed.of_walkStart started) files⟩

/-- A source file of a well-formed volume can be read unless there is a hindrance. -/
theorem read_of_mem_sources (wellFormed : volume.WellFormed) {found : List Text}
    (listed : sources volume root extension = .ok found) {path : Text} (member : path ∈ found) :
    ∃ bytes, volume.read path = (volume.hindrance? path).elim (.ok bytes) .error := by
  obtain ⟨start, started, listing⟩ := sourceListing_of_sources wellFormed listed
  obtain ⟨place, bytes, leads, rfl, -⟩ := (listing.mem_iff path).mp member
  have proper := ((wellFormed.of_walkStart started).at? leads).2
  rcases Volume.find_of_walkStart started with ⟨target, rfl, -⟩ | reached
  · cases place <;> cases leads
  · exact ⟨bytes, Volume.read_below reached proper leads⟩

/-- A source file with one block. -/
def sampleText : Text :=
  ['a', 's', 's', 'e', 'm', 'b', 'l', 'y', ' ', '{', '\n', '}', '\n']

/-- Two source files, another file, and a link to the directory itself. -/
def sampleEntries : List (Text × Node) :=
  [(['a', '-', 'b', '.', 's', 'o', 'l'], .file []), (['l'], .link ['.']), (['n'], .file []),
    (['a'], .directory [(['x', '.', 's', 'o', 'l'], .file (Utf8.encode sampleText))])]

/-- A volume with one workspace. -/
def sampleVolume : Volume where
  root := .directory [(['w'], .directory sampleEntries)]
  current := []

/-- The order of the files is not that of the characters of their paths. -/
example : sources sampleVolume ['w'] Options.standard.extension =
    .ok [['w', '/', 'a', '/', 'x', '.', 's', 'o', 'l'],
      ['w', '/', 'a', '-', 'b', '.', 's', 'o', 'l']] := rfl

/-- A path of 4095 bytes to the directory `w`. -/
def longRoot : Text :=
  ['w'] ++ List.replicate 4094 '/'

theorem byteLength_longRoot : longRoot.byteLength = 4095 := by
  rw [longRoot, Text.byteLength_append, Text.byteLength_replicate]
  rfl

theorem join_longRoot {name : Text} (proper : ProperName name) :
    Path.join longRoot name = longRoot ++ name :=
  Path.join_append_separators proper ['w'] 4093

theorem pathLimit_le_join_longRoot {name : Text} (proper : ProperName name) :
    Volume.pathLimit ≤ (Path.join longRoot name).byteLength := by
  have positive := Text.byteLength_pos proper.nonempty
  rw [join_longRoot proper, Text.byteLength_append, byteLength_longRoot]
  exact Nat.add_le_add_left positive 4095

/-- The path of a name below the long path is too long, whatever the volume. -/
theorem resolve_join_longRoot (volume : Volume) {name : Text} (proper : ProperName name) :
    volume.resolve .reach (Path.join longRoot name) = .error .nameTooLong := by
  have noNul : '\x00' ∉ longRoot := by
    intro member
    rcases List.mem_append.mp member with member | member
    · exact absurd member (by decide)
    · exact absurd (List.eq_of_mem_replicate member) (by decide)
  refine Volume.resolve_of_long ?_ (pathLimit_le_join_longRoot proper)
  rw [join_longRoot proper]
  exact fun member => (List.mem_append.mp member).elim noNul proper.noNul

end Scope

end AssemblyDigest
