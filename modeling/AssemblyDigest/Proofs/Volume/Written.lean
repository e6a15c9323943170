import AssemblyDigest.Proofs.Volume.Alike
import AssemblyDigest.Proofs.Volume.Changes
import AssemblyDigest.Proofs.Volume.Reading

/-! # What writing a file changes

A file can be written where a file stands and where a name is missing from a directory. There
it stands afterwards, and everything else is as before (`AssemblyDigest.Node.Rewritten`). Since
no path leads on from a file, every way through the volume is still a way after the writing
(`AssemblyDigest.Volume.Way.of_before`), and a way that does not end at the file has been one
before (`AssemblyDigest.Volume.Way.of_after`). A path that a file was written to leads to
that file (`AssemblyDigest.Volume.rewritten_of_write`).
-/

namespace AssemblyDigest

namespace Node

/-- What stands in a place itself, without what a directory holds. -/
def surface : Node → Node
  | .directory _ => emptyDirectory
  | node => node

/-- What stands at a place itself. -/
def surfaceAt (node : Node) (place : Place) : Option Node :=
  (node.at? place).map surface

theorem kind_surface (node : Node) : node.surface.kind = node.kind := by
  cases node <;> rfl

/-- What stands at a place determines its kind. -/
theorem kindAt_eq (node : Node) (place : Place) :
    node.kindAt place = (node.surfaceAt place).map kind := by
  rw [kindAt, surfaceAt, Option.map_map]
  exact congrArg (Option.map · _) (funext fun found => (kind_surface found).symm)

theorem surfaceAt_eq_file_iff {node : Node} {place : Place} {bytes : Bytes} :
    node.surfaceAt place = some (.file bytes) ↔ node.at? place = some (.file bytes) := by
  rw [surfaceAt, Option.map_eq_some_iff]
  constructor
  · rintro ⟨found, stands, same⟩
    cases found with
    | file content =>
        cases same
        exact stands
    | link target => cases same
    | directory entries => cases same
  · exact fun stands => ⟨_, stands, rfl⟩

theorem kindAt_eq_link_iff {node : Node} {place : Place} {target : Text} :
    node.kindAt place = some (.link target) ↔ node.at? place = some (.link target) := by
  rw [kindAt, Option.map_eq_some_iff]
  constructor
  · rintro ⟨found, stands, same⟩
    cases found with
    | file content => cases same
    | link aim =>
        cases same
        exact stands
    | directory entries => cases same
  · exact fun stands => ⟨_, stands, rfl⟩

/-- A name in a directory leads to what stands below the directory. -/
theorem lookup_eq {node : Node} {here : Place} {entries : List (Text × Node)}
    (directory : node.at? here = some (.directory entries)) (name : Text) :
    entries.lookup name = node.at? (here ++ [name]) := by
  rw [at?_append, directory, Option.bind_some, at?_directory_cons]
  cases entries.lookup name with
  | none => rfl
  | some child => rw [Option.bind_some, at?_nil]

/-- What has something below it is a directory. -/
theorem exists_directory_of_at? {node found : Node} {place rest : Place} (nonempty : rest ≠ [])
    (stands : node.at? (place ++ rest) = some found) :
    ∃ entries, node.at? place = some (.directory entries) := by
  rw [at?_append] at stands
  obtain ⟨middle, reached, stands⟩ := Option.bind_eq_some_iff.mp stands
  cases rest with
  | nil => exact (nonempty rfl).elim
  | cons name rest =>
      cases middle with
      | file bytes => cases stands
      | link target => cases stands
      | directory entries => exact ⟨entries, reached⟩

/-- Where a file can be written in a tree: where a file stands, and where a name is missing. -/
inductive Writable : Node → Place → Prop
  | file (old : Bytes) : Writable (.file old) []
  | missing {entries : List (Text × Node)} {name : Text} (absent : entries.lookup name = none) :
      Writable (.directory entries) [name]
  | inside {entries : List (Text × Node)} {name : Text} {child : Node} {rest : Place}
      (found : entries.lookup name = some child) (writable : Writable child rest) :
      Writable (.directory entries) (name :: rest)

/-- A place that can be written below a node can be written from above. -/
theorem Writable.under {node child : Node} {here rest : Place}
    (stands : node.at? here = some child) (writable : Writable child rest) :
    Writable node (here ++ rest) := by
  induction here generalizing node with
  | nil =>
      rw [at?_nil] at stands
      cases stands
      exact writable
  | cons name here ih =>
      cases node with
      | file bytes => cases stands
      | link target => cases stands
      | directory entries =>
          rw [at?_directory_cons] at stands
          obtain ⟨inner, found, stands⟩ := Option.bind_eq_some_iff.mp stands
          exact .inside found (ih stands)

/-- How a tree changes when a file is written at a place. -/
structure Rewritten (before after : Node) (place : Place) (bytes : Bytes) : Prop where
  /-- The file is new, or replaces another. -/
  free : before.at? place = none ∨ ∃ old, before.at? place = some (.file old)
  written : after.at? place = some (.file bytes)
  others : ∀ other, other ≠ place → after.surfaceAt other = before.surfaceAt other

/-- A change of an entry is a change below its name only. -/
theorem at?_insert_cons (new : Node) (name other : Text) (rest tail : Place)
    (entries : List (Text × Node)) :
    (insert new (name :: rest) (.directory entries)).at? (other :: tail) =
      if other = name then
        (insert new rest ((entries.lookup name).getD emptyDirectory)).at? tail
      else (directory entries).at? (other :: tail) := by
  rw [insert, at?_directory_cons, lookup_setEntry, at?_directory_cons]
  by_cases same : other = name
  · rw [if_pos same, if_pos same, Option.bind_some]
  · rw [if_neg same, if_neg same]

/-- Putting a file where one can be written does just that. -/
theorem Writable.rewritten {node : Node} {place : Place} (writable : node.Writable place)
    (bytes : Bytes) : Rewritten node (insert (.file bytes) place node) place bytes := by
  induction writable with
  | file old =>
      refine ⟨Or.inr ⟨old, rfl⟩, rfl, fun other different => ?_⟩
      cases other with
      | nil => exact (different rfl).elim
      | cons name other => rfl
  | @missing entries name absent =>
      refine ⟨Or.inl ?_, ?_, fun other different => ?_⟩
      · rw [at?_directory_cons, absent, Option.bind_none]
      · rw [at?_insert_cons, if_pos rfl, insert, at?_nil]
      · cases other with
        | nil => rfl
        | cons first tail =>
            rw [surfaceAt, surfaceAt, at?_insert_cons]
            split
            · next same =>
                subst same
                cases tail with
                | nil => exact (different rfl).elim
                | cons second tail => rw [insert, at?_directory_cons, absent]; rfl
            · rfl
  | @inside entries name child rest found writable ih =>
      refine ⟨?_, ?_, fun other different => ?_⟩
      · rw [at?_directory_cons, found, Option.bind_some]
        exact ih.free
      · rw [at?_insert_cons, if_pos rfl, found, Option.getD_some]
        exact ih.written
      · cases other with
        | nil => rfl
        | cons first tail =>
            rw [surfaceAt, surfaceAt, at?_insert_cons]
            split
            · next same =>
                subst same
                have apart : tail ≠ rest := fun equal => different (congrArg _ equal)
                rw [at?_directory_cons, found, Option.getD_some, Option.bind_some]
                exact ih.others tail apart
            · rfl

/-- A change that keeps the entry it is made to keeps all entries. -/
theorem setEntry_of_lookup {name : Text} {change : Option Node → Node}
    {entries : List (Text × Node)} {child : Node} (found : entries.lookup name = some child)
    (same : change (some child) = child) : setEntry name change entries = entries := by
  induction entries with
  | nil => cases found
  | cons entry rest ih =>
      rw [lookup_cons_ite] at found
      rw [setEntry]
      by_cases here : entry.1 = name
      · rw [if_pos here.symm] at found
        cases found
        rw [if_pos here, same]
      · rw [if_neg (Ne.symm here)] at found
        rw [if_neg here, ih found]

/-- Putting at a place what stands there changes nothing. -/
theorem insert_of_at? {node new : Node} {place : Place} (stands : node.at? place = some new) :
    insert new place node = node := by
  induction place generalizing node with
  | nil =>
      rw [at?_nil] at stands
      cases stands
      rfl
  | cons name rest ih =>
      cases node with
      | file bytes => cases stands
      | link target => cases stands
      | directory entries =>
          rw [at?_directory_cons] at stands
          obtain ⟨child, found, stands⟩ := Option.bind_eq_some_iff.mp stands
          rw [insert, setEntry_of_lookup found (ih stands)]

namespace Rewritten

variable {before after : Node} {place : Place} {bytes : Bytes}

/-- Directories and links stay what they are, and no others come about. -/
theorem kindAt_iff (rewritten : Rewritten before after place bytes) {kind : Kind}
    (notFile : kind ≠ .file) (other : Place) :
    after.kindAt other = some kind ↔ before.kindAt other = some kind := by
  by_cases same : other = place
  · subst same
    have later : after.kindAt other = some .file := kindAt_eq_file_iff.mpr ⟨_, rewritten.written⟩
    have earlier : before.kindAt other ≠ some kind := by
      rcases rewritten.free with absent | stands
      · rw [kindAt, absent]
        exact fun impossible => by cases impossible
      · rw [kindAt_eq_file_iff.mpr stands]
        exact fun same => notFile (Option.some.inj same).symm
    rw [later]
    exact iff_of_false (fun same => notFile (Option.some.inj same).symm) earlier
  · rw [kindAt_eq, kindAt_eq, rewritten.others other same]

/-- The files elsewhere keep their bytes. -/
theorem at?_file_iff (rewritten : Rewritten before after place bytes) {other : Place}
    (different : other ≠ place) (content : Bytes) :
    after.at? other = some (.file content) ↔ before.at? other = some (.file content) := by
  rw [← surfaceAt_eq_file_iff, ← surfaceAt_eq_file_iff, rewritten.others other different]

end Rewritten

end Node

namespace Volume

variable {volume before after : Volume} {written : Place} {bytes : Bytes}

/-- How a volume changes when a file is written at a place. -/
structure Rewritten (before after : Volume) (place : Place) (bytes : Bytes) : Prop where
  root : before.root.Rewritten after.root place bytes
  current : after.current = before.current
  obstacles : after.obstacles = before.obstacles

/-- What stands below a directory is one of its entries. -/
theorem exists_lookup_of_kindAt {here : Place} {entries : List (Text × Node)} {name : Text}
    {kind : Node.Kind} (directory : volume.at? here = some (.directory entries))
    (stands : volume.root.kindAt (here ++ [name]) = some kind) :
    ∃ node, entries.lookup name = some node ∧ node.kind = kind := by
  rw [Node.kindAt_append_name directory] at stands
  exact Option.map_eq_some_iff.mp stands

theorem kindAt_of_lookup {here : Place} {entries : List (Text × Node)} {name : Text}
    {node : Node} (directory : volume.at? here = some (.directory entries))
    (found : entries.lookup name = some node) :
    volume.root.kindAt (here ++ [name]) = some node.kind := by
  rw [Node.kindAt_append_name directory, found, Option.map_some]

theorem eq_link_of_kind {node : Node} {target : Text} (same : node.kind = .link target) :
    node = .link target := by
  cases node with
  | file bytes => cases same
  | link aim =>
      cases same
      rfl
  | directory entries => cases same

/-- The parent of a directory is a directory. -/
theorem exists_directory_dropLast {here : Place} {entries : List (Text × Node)}
    (directory : volume.at? here = some (.directory entries)) :
    ∃ others, volume.at? here.dropLast = some (.directory others) := by
  by_cases top : here = []
  · subst top
    exact ⟨entries, directory⟩
  · rw [← List.dropLast_concat_getLast top] at directory
    exact Node.exists_directory_of_at? (List.cons_ne_nil _ _) directory

/-- No path leads on from a file. -/
theorem Way.eq_of_file {purpose : Purpose} {links : Nat} {elements : List Text}
    {here place : Place} (way : Way volume purpose links elements here place)
    (file : volume.at? here = some (.file bytes)) : place = here := by
  cases elements with
  | nil =>
      cases way
      rfl
  | cons element rest =>
      obtain ⟨entries, directory⟩ := way.exists_directory
      rw [file] at directory
      cases directory

/-- A way for writing that ends where something stands reaches it. -/
theorem Way.reach_of_create {links : Nat} {elements : List Text} {here place : Place}
    (way : Way volume .create links elements here place) {node : Node}
    (stands : volume.at? place = some node) : Way volume .reach links elements here place := by
  induction way with
  | done links here => exact .done links here
  | stay directory dot way ih => exact .stay directory dot (ih stands)
  | parent directory way ih => exact .parent directory (ih stands)
  | enter directory passable found plain way ih =>
      exact .enter directory (passable.reach _) found plain (ih stands)
  | jump directory passable found through way ih =>
      exact .jump directory (passable.reach _) found
        (fun looking => by cases looking.1) (ih stands)
  | link directory passable found inspecting => cases inspecting
  | @missing links name here entries directory passable absent creating =>
      rw [at?, ← Node.lookup_eq directory name, absent] at stands
      cases stands

/-- A way for writing ends at a file or directory, or where a file can be written. -/
theorem Way.plain_or_writable (plainRoot : ∀ target, volume.root ≠ .link target) {links : Nat}
    {elements : List Text} {here place : Place}
    (way : Way volume .create links elements here place)
    (stands : ∃ node, volume.at? here = some node ∧ ∀ target, node ≠ .link target) :
    (∃ node, volume.at? place = some node ∧ ∀ target, node ≠ .link target) ∨
      volume.root.Writable place := by
  induction way with
  | done links here => exact Or.inl stands
  | stay directory dot way ih => exact ih stands
  | parent directory way ih =>
      obtain ⟨others, parent⟩ := exists_directory_dropLast directory
      exact ih ⟨_, parent, fun target => by simp⟩
  | enter directory passable found plain way ih =>
      exact ih ⟨_, at?_append_name directory found, plain⟩
  | @jump links name target rest here place entries directory passable found through way ih =>
      apply ih
      split
      · exact ⟨_, Node.at?_nil _, plainRoot⟩
      · exact ⟨_, directory, fun target => by simp⟩
  | link directory passable found inspecting => cases inspecting
  | missing directory passable absent creating =>
      exact Or.inr (.under directory (.missing absent))

/-- A path that a file can be written to leads to where one can be written. -/
theorem writable_of_outputPlace (plainRoot : ∀ target, volume.root ≠ .link target) {path : Text}
    {place : Place} (output : volume.outputPlace path = .ok place) :
    volume.resolve .create path = .ok place ∧ volume.root.Writable place := by
  obtain ⟨resolved, notDirectory⟩ := resolve_of_outputPlace output
  refine ⟨resolved, ?_⟩
  obtain ⟨-, nonempty, -, way⟩ := resolve_eq_ok_iff.mp resolved
  have stands : ∃ node, volume.at? (volume.origin path) = some node ∧
      ∀ target, node ≠ .link target := by
    cases elements : Path.elements path with
    | nil =>
        rw [origin, if_pos (Path.isAbsolute_of_elements_eq_nil nonempty elements)]
        exact ⟨_, Node.at?_nil _, plainRoot⟩
    | cons element rest =>
        rw [elements] at way
        obtain ⟨entries, directory⟩ := way.exists_directory
        exact ⟨_, directory, fun target => by simp⟩
  rcases way.plain_or_writable plainRoot stands with ⟨node, found, plain⟩ | writable
  · cases node with
    | file old =>
        rw [← List.append_nil place]
        exact .under found (.file old)
    | link aim => exact (plain aim rfl).elim
    | directory entries => exact (notDirectory entries found).elim
  · exact writable

section Rewritten

variable (rewritten : Rewritten before after written bytes)

include rewritten

/-- What stood at a place is still of its kind there. -/
theorem Rewritten.kindAt_of_before {other : Place} {kind : Node.Kind}
    (stands : before.root.kindAt other = some kind) : after.root.kindAt other = some kind := by
  by_cases isFile : kind = .file
  · subst isFile
    by_cases same : other = written
    · subst same
      exact Node.kindAt_eq_file_iff.mpr ⟨bytes, rewritten.root.written⟩
    · rw [Node.kindAt_eq, rewritten.root.others other same, ← Node.kindAt_eq, stands]
  · exact (rewritten.root.kindAt_iff isFile other).mpr stands

/-- Directories stand where they stood before. -/
theorem Rewritten.exists_directory_iff (here : Place) :
    (∃ entries, after.at? here = some (.directory entries)) ↔
      ∃ entries, before.at? here = some (.directory entries) := by
  unfold at?
  rw [← Node.kindAt_eq_directory_iff, ← Node.kindAt_eq_directory_iff,
    rewritten.root.kindAt_iff (by decide)]

/-- Every way is still a way after a file was written. -/
theorem Way.of_before {purpose : Purpose} {links : Nat} {elements : List Text}
    {here place : Place} (way : Way before purpose links elements here place) :
    Way after purpose links elements here place := by
  induction way with
  | done links here => exact .done links here
  | stay directory dot way ih =>
      obtain ⟨others, later⟩ := (rewritten.exists_directory_iff _).mpr ⟨_, directory⟩
      exact .stay later dot ih
  | parent directory way ih =>
      obtain ⟨others, later⟩ := (rewritten.exists_directory_iff _).mpr ⟨_, directory⟩
      exact .parent later ih
  | @enter links name rest here place entries node directory passable found plain way ih =>
      obtain ⟨others, later⟩ := (rewritten.exists_directory_iff _).mpr ⟨_, directory⟩
      obtain ⟨other, present, same⟩ := exists_lookup_of_kindAt later
        (rewritten.kindAt_of_before (kindAt_of_lookup directory found))
      refine .enter later passable present (fun target linked => ?_) ih
      subst linked
      exact plain target (eq_link_of_kind same.symm)
  | jump directory passable found through way ih =>
      obtain ⟨others, later⟩ := (rewritten.exists_directory_iff _).mpr ⟨_, directory⟩
      obtain ⟨other, present, same⟩ := exists_lookup_of_kindAt later
        (rewritten.kindAt_of_before (kindAt_of_lookup directory found))
      cases eq_link_of_kind same
      exact .jump later passable present through ih
  | link directory passable found inspecting =>
      obtain ⟨others, later⟩ := (rewritten.exists_directory_iff _).mpr ⟨_, directory⟩
      obtain ⟨other, present, same⟩ := exists_lookup_of_kindAt later
        (rewritten.kindAt_of_before (kindAt_of_lookup directory found))
      cases eq_link_of_kind same
      exact .link later passable present inspecting
  | @missing links name here entries directory passable absent creating =>
      obtain ⟨others, later⟩ := (rewritten.exists_directory_iff _).mpr ⟨_, directory⟩
      cases present : others.lookup name with
      | none => exact .missing later passable present creating
      | some node =>
          -- Only a file can be new where nothing was.
          have isFile : node.kind = .file := by
            by_contra notFile
            have earlier := (rewritten.root.kindAt_iff notFile _).mp
              (kindAt_of_lookup later present)
            rw [Node.kindAt_append_name directory, absent] at earlier
            cases earlier
          refine .enter later passable present (fun target linked => ?_) (.done _ _)
          subst linked
          cases isFile

/-- A way that does not end at the file was a way before it was written. -/
theorem Way.of_after {links : Nat} {elements : List Text} {here place : Place}
    (way : Way after .reach links elements here place) (different : place ≠ written) :
    Way before .reach links elements here place := by
  induction way with
  | done links here => exact .done links here
  | stay directory dot way ih =>
      obtain ⟨others, earlier⟩ := (rewritten.exists_directory_iff _).mp ⟨_, directory⟩
      exact .stay earlier dot (ih different)
  | parent directory way ih =>
      obtain ⟨others, earlier⟩ := (rewritten.exists_directory_iff _).mp ⟨_, directory⟩
      exact .parent earlier (ih different)
  | @enter links name rest here place entries node directory passable found plain way ih =>
      obtain ⟨others, earlier⟩ := (rewritten.exists_directory_iff _).mp ⟨_, directory⟩
      have apart : here ++ [name] ≠ written := by
        rintro rfl
        exact different (way.eq_of_file rewritten.root.written)
      have stands := kindAt_of_lookup directory found
      rw [Node.kindAt_eq, rewritten.root.others _ apart, ← Node.kindAt_eq] at stands
      obtain ⟨other, present, same⟩ := exists_lookup_of_kindAt earlier stands
      refine .enter earlier passable present (fun target linked => ?_) (ih different)
      subst linked
      exact plain target (eq_link_of_kind same.symm)
  | jump directory passable found through way ih =>
      obtain ⟨others, earlier⟩ := (rewritten.exists_directory_iff _).mp ⟨_, directory⟩
      obtain ⟨other, present, same⟩ := exists_lookup_of_kindAt earlier
        ((rewritten.root.kindAt_iff (by simp [Node.kind]) _).mp (kindAt_of_lookup directory found))
      cases eq_link_of_kind same
      exact .jump earlier passable present through (ih different)
  | link directory passable found inspecting => cases inspecting
  | missing directory passable absent creating => cases creating

theorem Rewritten.origin_eq (path : Text) : after.origin path = before.origin path := by
  unfold origin
  rw [rewritten.current]

/-- A path leads where it led before. -/
theorem Rewritten.resolve_of_before {purpose : Purpose} {path : Text} {place : Place}
    (resolved : before.resolve purpose path = .ok place) :
    after.resolve purpose path = .ok place := by
  obtain ⟨noNul, nonempty, short, way⟩ := resolve_eq_ok_iff.mp resolved
  rw [← rewritten.origin_eq path] at way
  exact resolve_eq_ok_iff.mpr ⟨noNul, nonempty, short, way.of_before rewritten⟩

/-- A path that does not lead to the file led there before. -/
theorem Rewritten.resolve_of_after {path : Text} {place : Place}
    (resolved : after.resolve .reach path = .ok place) (different : place ≠ written) :
    before.resolve .reach path = .ok place := by
  obtain ⟨noNul, nonempty, short, way⟩ := resolve_eq_ok_iff.mp resolved
  rw [rewritten.origin_eq path] at way
  exact resolve_eq_ok_iff.mpr ⟨noNul, nonempty, short, way.of_after rewritten different⟩

/-- Files elsewhere are as they were. -/
theorem Rewritten.at?_file_iff {other : Place} (different : other ≠ written)
    (content : Bytes) :
    after.at? other = some (.file content) ↔ before.at? other = some (.file content) :=
  rewritten.root.at?_file_iff different content

/-- A path that leads elsewhere is read as before. -/
theorem Rewritten.read_eq {path : Text} {place : Place}
    (resolved : before.resolve .reach path = .ok place) (different : place ≠ written) :
    after.read path = before.read path := by
  have same := rewritten.root.others place different
  unfold read obstacle?
  rw [resolved, rewritten.resolve_of_before resolved, rewritten.obstacles]
  simp only [bind, Except.bind, at?]
  rw [Node.surfaceAt, Node.surfaceAt] at same
  cases stands : before.root.at? place with
  | none =>
      rw [stands, Option.map_none, Option.map_eq_none_iff] at same
      rw [same]
  | some node =>
      rw [stands, Option.map_some, Option.map_eq_some_iff] at same
      obtain ⟨other, found, same⟩ := same
      rw [found]
      cases node <;> cases other <;> cases same <;> rfl

/-- The file that was written is read by a path to it, unless something has always kept it from
being read. -/
theorem Rewritten.read_written {path : Text} (leads : after.resolve .reach path = .ok written)
    (free : before.obstacle? written = none) : after.read path = .ok bytes := by
  refine read_eq_ok_iff.mpr ⟨written, leads, rewritten.root.written, ?_⟩
  rw [obstacle?, rewritten.obstacles]
  exact free

end Rewritten

/-- **Writing a file** puts it where the path leads, leaves everything else alone, and the path
then leads to it. -/
theorem rewritten_of_write (plainRoot : ∀ target, before.root ≠ .link target) {path : Text}
    (wrote : before.write path bytes = .ok after) :
    ∃ place, before.outputPlace path = .ok place ∧ Rewritten before after place bytes ∧
      after.resolve .reach path = .ok place := by
  obtain ⟨place, output, wrote⟩ := exists_of_bind_eq_ok wrote
  cases wrote
  obtain ⟨resolved, writable⟩ := writable_of_outputPlace plainRoot output
  have rewritten : Rewritten before (before.insert place (.file bytes)) place bytes :=
    ⟨writable.rewritten bytes, rfl, rfl⟩
  refine ⟨place, output, rewritten, ?_⟩
  obtain ⟨noNul, nonempty, short, way⟩ :=
    resolve_eq_ok_iff.mp (rewritten.resolve_of_before resolved)
  exact resolve_eq_ok_iff.mpr
    ⟨noNul, nonempty, fun long => short ⟨by decide, long.2⟩,
      way.reach_of_create rewritten.root.written⟩

/-- Writing the same file again changes nothing. -/
theorem write_of_rewritten (rewritten : Rewritten before after written bytes) {path : Text}
    (output : before.outputPlace path = .ok written) : after.write path bytes = .ok after := by
  have resolved := rewritten.resolve_of_before (resolve_of_outputPlace output).1
  have stands : after.at? written = some (.file bytes) := rewritten.root.written
  have unchanged : after.insert written (.file bytes) = after := by
    rw [insert, Node.insert_of_at? rewritten.root.written]
  simp only [write, outputPlace, resolved, stands, unchanged, bind,
    Except.bind]

end Volume

end AssemblyDigest
