import AssemblyDigest.Proofs.Scope.Sources
import AssemblyDigest.Proofs.Volume.OwnName
import AssemblyDigest.Report

/-! # The names that files are listed under

A report lists a path under its last name, or in full if it has none. The path of a source file
ends with the name of the file, so the file is listed under its own name however the root of the
workspace is written, and `/` or `/.` after a path that has a last name change nothing
(`AssemblyDigest.Report.listsAs_lastName`).
-/

namespace AssemblyDigest

namespace Report

/-- Snippets that are added for a path are listed under a name, in whatever report. -/
def ListsAs (path name : Text) : Prop :=
  ∀ (report : Report) (snippets : List Text), snippets ≠ [] →
    (report.push path snippets).entries = report.entries ++ [⟨name, path, snippets⟩]

/-- A path is listed under the name of its entry. -/
theorem listsAs_iff {path name : Text} : ListsAs path name ↔ Path.fileName path = name := by
  constructor
  · intro listed
    have entries := listed .empty [[]] (List.cons_ne_nil _ _)
    exact congrArg ReportEntry.fileName (List.singleton_inj.mp entries)
  · rintro rfl report snippets nonempty
    rw [push, if_neg fun empty => nonempty (List.isEmpty_iff.mp empty)]
    rfl

/-- A path with a last name is listed under it. -/
theorem listsAs_of_lastName? {path name : Text} (named : Path.lastName? path = some name) :
    ListsAs path name := by
  rw [listsAs_iff, Path.fileName_eq, named, Option.getD_some]

/-- Every source file is listed under the last name of the place where it stands. -/
theorem exists_top_of_sources {volume : Volume} (wellFormed : volume.WellFormed)
    {root extension : Text} {found : List Text}
    (listed : Scope.sources volume root extension = .ok found) {path : Text}
    (member : path ∈ found) :
    ∃ top place bytes, volume.resolve .reach root = .ok top ∧ Path.below root place = path ∧
      volume.at? (top ++ place) = some (.file bytes) ∧
      ListsAs path ((top ++ place).getLast?.getD path) := by
  obtain ⟨start, started, listing⟩ := Scope.sourceListing_of_sources wellFormed listed
  obtain ⟨place, bytes, leads, rfl, -⟩ := (listing.mem_iff path).mp member
  obtain ⟨top, resolved, stands, named⟩ :=
    Volume.exists_top_of_walkStart wellFormed started leads
  refine ⟨top, place, bytes, resolved, rfl, stands, ?_⟩
  rw [listsAs_iff, Path.fileName_eq, named]

/-- **The names that files are listed under.** A path is listed under the last of its elements that
are neither empty nor `.`, or in full if there is none or if it is `..`. Every source file is listed
under the last name of the place where it stands, however the root is written; only a volume that
is itself a file stands at a place without names. A path that has a last name keeps it with `/` and
`/.` after it. -/
theorem listsAs_lastName :
    (∀ path, ListsAs path ((Path.lastName? path).getD path)) ∧
    (∀ (volume : Volume) (root extension : Text) (found : List Text), volume.WellFormed →
      Scope.sources volume root extension = .ok found → ∀ path ∈ found, ∃ top place bytes,
        volume.resolve .reach root = .ok top ∧ Path.below root place = path ∧
        volume.at? (top ++ place) = some (.file bytes) ∧
        ListsAs path ((top ++ place).getLast?.getD path)) ∧
    ∀ path padding name, Path.lastName? path = some name → Path.Padding padding →
      ListsAs path name ∧ ListsAs (path ++ padding) name := by
  refine ⟨fun path => listsAs_iff.mpr (Path.fileName_eq path), ?_, ?_⟩
  · intro volume root extension found wellFormed listed path member
    exact exists_top_of_sources wellFormed listed member
  · intro path padding name named padded
    have namedToo := (Path.lastName?_append_padding padded path).trans named
    exact ⟨listsAs_of_lastName? named, listsAs_of_lastName? namedToo⟩

/-- The directory `w`, with padding after its name. -/
def paddedRoot : Text := ['w', '/', '.', '/']

/-- The name of a source file. -/
def sourceName : Text := ['x', '.', 's', 'o', 'l']

/-- A source file is listed under its own name, although the path to the root ends in separators
and dots. -/
theorem listsAs_lastName_sampleVolume :
    Scope.sampleVolume.WellFormed ∧
    Scope.sources Scope.sampleVolume paddedRoot sourceName =
      .ok [paddedRoot ++ ['a', '/'] ++ sourceName] ∧
    (∃ top place bytes, Scope.sampleVolume.resolve .reach paddedRoot = .ok top ∧
      Path.below paddedRoot place = paddedRoot ++ ['a', '/'] ++ sourceName ∧
      Scope.sampleVolume.at? (top ++ place) = some (.file bytes) ∧
      ListsAs (paddedRoot ++ ['a', '/'] ++ sourceName)
        ((top ++ place).getLast?.getD (paddedRoot ++ ['a', '/'] ++ sourceName))) ∧
    Path.lastName? sourceName = some sourceName ∧ Path.Padding ['/', '/', '.'] ∧
    ListsAs (sourceName ++ ['/', '/', '.']) sourceName := by
  have wellFormed : Scope.sampleVolume.WellFormed := by decide
  have listed : Scope.sources Scope.sampleVolume paddedRoot sourceName =
      .ok [paddedRoot ++ ['a', '/'] ++ sourceName] := rfl
  have named : Path.lastName? sourceName = some sourceName := by decide
  have padded : Path.Padding ['/', '/', '.'] := .separator (.here .nil)
  exact ⟨wellFormed, listed,
    listsAs_lastName.2.1 _ _ _ _ wellFormed listed _ (List.mem_singleton_self _), named, padded,
    (listsAs_lastName.2.2 _ _ _ named padded).2⟩

end Report

end AssemblyDigest
