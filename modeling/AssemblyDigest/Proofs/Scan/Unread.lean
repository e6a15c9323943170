import AssemblyDigest.Proofs.Scope.Sources
import AssemblyDigest.Proofs.Volume.Alike
import AssemblyDigest.Scan

/-! # What a scan does not depend on

A scan reads the declaration it finds and the files in its scope, and nothing else
(`AssemblyDigest.Scan.ReadBy`). The search for a declaration and the walks see only places and
kinds, so they end alike in alike volumes. Two volumes that are alike and agree on the files that
are read therefore have the same scope, the same outcome, and the same bytes written
(`AssemblyDigest.Scan.agree_of_unread`): no content from outside the scope reaches a report.
-/

namespace AssemblyDigest

namespace Scope

variable {first second : Volume}

/-- Walks of alike volumes see the same directories and find the same paths. -/
theorem start_cases (alike : first.Alike second) (wellFormed : first.WellFormed)
    (otherWellFormed : second.WellFormed) (root : Text) :
    (∃ fault, start first root = .error fault ∧ start second root = .error fault) ∨
      ∃ one other, start first root = .ok one ∧ start second root = .ok other ∧
        one.subdirectories = other.subdirectories ∧ ∀ path, one.files path = other.files path := by
  unfold start
  cases alike.of_walkStart root with
  | fault cause failed otherFailed =>
      rw [failed, otherFailed]
      exact Or.inl ⟨_, rfl, rfl⟩
  | node one other started otherStarted alikeBelow =>
      have wellFormedBelow := wellFormed.of_walkStart started
      have otherWellFormedBelow := otherWellFormed.of_walkStart otherStarted
      rw [started, otherStarted]
      exact Or.inr ⟨one, other, rfl, rfl,
        alikeBelow.subdirectories_eq wellFormedBelow otherWellFormedBelow,
        alikeBelow.files_eq wellFormedBelow otherWellFormedBelow⟩

/-- The search for a declaration sees only places and kinds. -/
theorem findDeclaration_eq (alike : first.Alike second) (wellFormed : first.WellFormed)
    (otherWellFormed : second.WellFormed) (root name : Text) :
    findDeclaration first root name = findDeclaration second root name := by
  unfold findDeclaration
  rw [alike.isFile_eq]
  rcases start_cases alike wellFormed otherWellFormed root with
    ⟨fault, failed, otherFailed⟩ | ⟨one, other, started, otherStarted, same, -⟩
  · rw [failed, otherFailed]
  · simp only [started, otherStarted, same, bind, Except.bind]

theorem walk_eq (alike : first.Alike second) (wellFormed : first.WellFormed)
    (otherWellFormed : second.WellFormed) (root : Text) (wanted : Text → Bool) :
    walk first root wanted = walk second root wanted := by
  unfold walk
  rcases start_cases alike wellFormed otherWellFormed root with
    ⟨fault, failed, otherFailed⟩ | ⟨one, other, started, otherStarted, -, same⟩
  · rw [failed, otherFailed]
  · simp only [started, otherStarted, same, bind, Except.bind]

theorem sourcesOfPrefixes_eq (alike : first.Alike second) (wellFormed : first.WellFormed)
    (otherWellFormed : second.WellFormed) (root extension : Text) (prefixes : List Text) :
    sourcesOfPrefixes first root extension prefixes =
      sourcesOfPrefixes second root extension prefixes := by
  induction prefixes with
  | nil => rfl
  | cons part parts ih =>
      rw [sourcesOfPrefixes, sourcesOfPrefixes, walk_eq alike wellFormed otherWellFormed, ih]

/-- Which source files are in a scope is decided by places, kinds and the declaration. -/
theorem sourcesUnder_eq (alike : first.Alike second) (wellFormed : first.WellFormed)
    (otherWellFormed : second.WellFormed) (root : Text) (declaration : Option Declaration)
    (extension : Text) :
    sourcesUnder first root declaration extension =
      sourcesUnder second root declaration extension := by
  cases declaration with
  | none => exact walk_eq alike wellFormed otherWellFormed root _
  | some declaration =>
      exact sourcesOfPrefixes_eq alike wellFormed otherWellFormed root extension _

end Scope

namespace Scan

variable {first second volume : Volume} {root : Text} {options : Options}

/-- The places of the files whose bytes a scan reads: that of the declaration that is found,
and those that the paths of the scope lead to. -/
inductive ReadBy (volume : Volume) (root : Text) (options : Options) (place : Place) : Prop
  | declaration {path : Text}
      (found : Scope.findDeclaration volume root options.scopeFile = .ok (some path))
      (leads : volume.resolve .reach path = .ok place)
  | source {scope : Scope} {path : Text}
      (resolved : Scope.resolve volume root options = .ok scope) (member : path ∈ scope.files)
      (leads : volume.resolve .reach path = .ok place)

/-- Two scans of files that are read alike end alike. -/
theorem files_congr {paths : List Text}
    (same : ∀ path ∈ paths, first.read path = second.read path) (report : Report)
    (stats : Stats) : files first paths report stats = files second paths report stats := by
  induction paths generalizing report stats with
  | nil => rfl
  | cons path rest ih =>
      have sameRest := ih fun later member => same later (List.mem_cons_of_mem _ member)
      rw [files, files, readSource, readSource, same path List.mem_cons_self]
      simp only [sameRest]

/-- Alike volumes whose files are the same wherever the scan of the first one reads. -/
structure AgreeWhereRead (first second : Volume) (root : Text) (options : Options) : Prop where
  alike : first.Alike second
  unread : ∀ place, first.DifferAt second place → ¬ ReadBy first root options place

namespace AgreeWhereRead

/-- The declaration that is found is the same in both volumes. -/
theorem readDeclaration_eq (agree : AgreeWhereRead first second root options) {path : Text}
    (found : Scope.findDeclaration first root options.scopeFile = .ok (some path)) :
    Scope.readDeclaration first path = Scope.readDeclaration second path := by
  have same := agree.alike.read_eq fun place leads differ =>
    agree.unread place differ (.declaration found leads)
  unfold Scope.readDeclaration Volume.readText
  rw [same]

/-- The scope is the same in both volumes. -/
theorem resolve_eq (agree : AgreeWhereRead first second root options)
    (wellFormed : first.WellFormed) (otherWellFormed : second.WellFormed) :
    Scope.resolve first root options = Scope.resolve second root options := by
  unfold Scope.resolve
  rw [← Scope.findDeclaration_eq agree.alike wellFormed otherWellFormed]
  cases found : Scope.findDeclaration first root options.scopeFile with
  | error fault => rfl
  | ok declarationPath =>
      have declared : declarationPath.bind (Scope.readDeclaration first) =
          declarationPath.bind (Scope.readDeclaration second) := by
        cases declarationPath with
        | none => rfl
        | some path => exact agree.readDeclaration_eq found
      simp only [declared, bind, Except.bind,
        Scope.sourcesUnder_eq agree.alike wellFormed otherWellFormed]

/-- A scan ends alike in both volumes. -/
theorem workspace_eq (agree : AgreeWhereRead first second root options)
    (wellFormed : first.WellFormed) (otherWellFormed : second.WellFormed) :
    workspace first root options = workspace second root options := by
  unfold workspace
  rw [← agree.resolve_eq wellFormed otherWellFormed]
  cases resolved : Scope.resolve first root options with
  | error fault => rfl
  | ok scope =>
      have same : ∀ path ∈ scope.files, first.read path = second.read path := fun path member =>
        agree.alike.read_eq fun place leads differ =>
          agree.unread place differ (.source resolved member leads)
      simp only [files_congr same, bind, Except.bind]

end AgreeWhereRead

/-- **Contents outside the scope never reach the result.** If two volumes differ only in files that
are neither the declaration nor in the scope, in their bytes or in whether they can be read, both
have the same scope, the scans of both end alike, and they write the same bytes. -/
theorem agree_of_unread (wellFormed : first.WellFormed) (otherWellFormed : second.WellFormed)
    (alike : first.Alike second)
    (unread : ∀ place, first.DifferAt second place → ¬ ReadBy first root options place) :
    Scope.resolve first root options = Scope.resolve second root options ∧
      workspace first root options = workspace second root options ∧
      ∀ room, write first root room options = write second root room options := by
  have agree : AgreeWhereRead first second root options := ⟨alike, unread⟩
  have scanned := agree.workspace_eq wellFormed otherWellFormed
  refine ⟨agree.resolve_eq wellFormed otherWellFormed, scanned, fun room => ?_⟩
  unfold write writeTo
  rw [scanned]

/-- A workspace whose declaration covers one of its two source files. -/
def scopedVolume : Volume where
  root := .directory [(['w'], .directory
    [(['.', 's', 'c', 'o', 'p', 'e'], .file (Utf8.encode ['i', 'n', '\n'])),
      (['i', 'n'], .directory [(['A', '.', 's', 'o', 'l'], .file (Utf8.encode Scope.sampleText)),
        (['l'], .link ['.', '.'])]),
      (['o', 'u', 't'], .directory [(['B', '.', 's', 'o', 'l'], .file [])])])]
  current := []

/-- The source file that the declaration leaves out. -/
def outsidePlace : Place :=
  [['w'], ['o', 'u', 't'], ['B', '.', 's', 'o', 'l']]

/-- The same workspace with other bytes in the file that is left out. -/
def rescopedVolume : Volume :=
  scopedVolume.insert outsidePlace (.file (Utf8.encode Scope.sampleText))

/-- Other bytes in the file that a declaration leaves out change nothing. -/
theorem agree_of_scopedVolume :
    scopedVolume.WellFormed ∧ rescopedVolume.WellFormed ∧ scopedVolume.Alike rescopedVolume ∧
      scopedVolume.DifferAt rescopedVolume outsidePlace ∧
      (∀ place, scopedVolume.DifferAt rescopedVolume place →
        ¬ ReadBy scopedVolume ['w'] .standard place) ∧
      Scope.resolve scopedVolume ['w'] .standard = Scope.resolve rescopedVolume ['w'] .standard ∧
      workspace scopedVolume ['w'] .standard = workspace rescopedVolume ['w'] .standard ∧
      ∀ room, write scopedVolume ['w'] room .standard =
        write rescopedVolume ['w'] room .standard := by
  have wellFormed : scopedVolume.WellFormed := by decide
  have otherWellFormed : rescopedVolume.WellFormed := by decide
  have alike : scopedVolume.Alike rescopedVolume := Volume.alike_insert rfl _
  have located : Scope.findDeclaration scopedVolume ['w'] Options.standard.scopeFile =
      .ok (some ['w', '/', '.', 's', 'c', 'o', 'p', 'e']) := rfl
  have covered : Scope.resolve scopedVolume ['w'] .standard =
      .ok ⟨some ['w', '/', '.', 's', 'c', 'o', 'p', 'e'], some ⟨[['i', 'n']]⟩,
        [['w', '/', 'i', 'n', '/', 'A', '.', 's', 'o', 'l']]⟩ := rfl
  have unread : ∀ place, scopedVolume.DifferAt rescopedVolume place →
      ¬ ReadBy scopedVolume ['w'] .standard place := by
    intro place differ reads
    cases reads with
    | declaration found leads =>
        rw [located] at found
        cases found
        cases leads
        exact Volume.not_differAt_of_eq rfl rfl differ
    | source resolved member leads =>
        rw [covered] at resolved
        cases resolved
        cases List.mem_singleton.mp member
        cases leads
        exact Volume.not_differAt_of_eq rfl rfl differ
  exact ⟨wellFormed, otherWellFormed, alike, ⟨_, _, rfl, rfl, Or.inl (by decide)⟩, unread,
    agree_of_unread wellFormed otherWellFormed alike unread⟩

end Scan

end AssemblyDigest
