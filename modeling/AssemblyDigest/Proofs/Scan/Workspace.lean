import AssemblyDigest.Proofs.Scope.Resolution
import AssemblyDigest.Scan
import Mathlib.Tactic.Choose

/-! # What a scan reports

While a scan reads the files of a scope, the report and the numbers agree on the files read so
far (`AssemblyDigest.Scan.Tally`). One more file keeps them in agreement, so they agree at the
end. Every file of a scope can be read unless its path is too long or something keeps it from being
read, so that a scan of a well-formed volume ends with such a report, without any file, or at the
first hindrance (`AssemblyDigest.Scan.workspace_of_resolve`).
-/

namespace AssemblyDigest

namespace Report

@[simp] theorem snippetCount_cons (entry : ReportEntry) (rest : List ReportEntry) :
    snippetCount ⟨entry :: rest⟩ = entry.snippets.length + snippetCount ⟨rest⟩ := rfl

/-- The snippets of entries are counted one list after the other. -/
theorem snippetCount_append (first second : List ReportEntry) :
    snippetCount ⟨first ++ second⟩ = snippetCount ⟨first⟩ + snippetCount ⟨second⟩ := by
  induction first with
  | nil => exact (Nat.zero_add _).symm
  | cons entry rest ih =>
      rw [List.cons_append, snippetCount_cons, snippetCount_cons, ih, Nat.add_assoc]

/-- If every entry has snippets, there are at least as many snippets as entries. -/
theorem length_le_snippetCount {entries : List ReportEntry}
    (present : ∀ entry ∈ entries, entry.snippets ≠ []) :
    entries.length ≤ snippetCount ⟨entries⟩ := by
  induction entries with
  | nil => exact Nat.zero_le 0
  | cons first rest ih =>
      have positive := List.length_pos_iff.mpr (present first List.mem_cons_self)
      have others := ih fun later member => present later (List.mem_cons_of_mem _ member)
      rw [List.length_cons, snippetCount_cons]
      omega

end Report

namespace Scan

variable {volume : Volume} {root : Text} {options : Options}

/-- The blocks in the bytes of a source file. -/
def snippetsOf (bytes : Bytes) : List Text :=
  Block.extractText (Utf8.decodeLossy bytes)

/-- The entries of a report on files, one for each time a file with blocks comes up. -/
def entriesOf (contents : Text → Bytes) (paths : List Text) : List ReportEntry :=
  (paths.filter fun path => snippetsOf (contents path) ≠ []).map fun path =>
    ⟨Path.fileName path, path, snippetsOf (contents path)⟩

/-- A report and numbers that agree on the files scanned. -/
structure Tally (contents : Text → Bytes) (scopeFile : Option Text) (scanned : List Text)
    (report : Report) (stats : Stats) : Prop where
  entries : report.entries = entriesOf contents scanned
  filesScanned : stats.filesScanned = scanned.length
  filesWithSnippets : stats.filesWithSnippets = report.entries.length
  snippetsWritten : stats.snippetsWritten = report.snippetCount
  scopeFile : stats.scopeFile = scopeFile

namespace Tally

variable {contents : Text → Bytes} {scopeFile : Option Text} {scanned : List Text}
  {report : Report} {stats : Stats}

/-- Before the first file the report and the numbers agree. -/
theorem start (contents : Text → Bytes) (scopeFile : Option Text) :
    Tally contents scopeFile [] .empty (.start scopeFile) :=
  ⟨rfl, rfl, rfl, rfl, rfl⟩

/-- One more file keeps the report and the numbers in agreement. -/
theorem push (tally : Tally contents scopeFile scanned report stats) (path : Text) :
    Tally contents scopeFile (scanned ++ [path])
      (report.push path (snippetsOf (contents path)))
      (stats.count (snippetsOf (contents path))) := by
  by_cases noBlock : snippetsOf (contents path) = []
  · have sameReport : report.push path (snippetsOf (contents path)) = report := by
      rw [Report.push, noBlock, List.isEmpty_nil, if_pos rfl]
    have counted : stats.count (snippetsOf (contents path)) =
        { stats with filesScanned := stats.filesScanned + 1 } := by
      rw [Stats.count, noBlock, List.isEmpty_nil, if_pos rfl]
    rw [sameReport, counted]
    refine ⟨?_, ?_, tally.filesWithSnippets, tally.snippetsWritten, tally.scopeFile⟩
    · rw [tally.entries, entriesOf, entriesOf, List.filter_append,
        List.filter_cons_of_neg (by simpa using noBlock), List.filter_nil, List.append_nil]
    · rw [List.length_append, List.length_singleton, tally.filesScanned]
  · have notEmpty : (snippetsOf (contents path)).isEmpty = false :=
      List.isEmpty_eq_false_iff.mpr noBlock
    have pushed : report.push path (snippetsOf (contents path)) =
        ⟨report.entries ++ [ReportEntry.of path (snippetsOf (contents path))]⟩ := by
      rw [Report.push, notEmpty]
      rfl
    have counted : stats.count (snippetsOf (contents path)) =
        { stats with
          filesScanned := stats.filesScanned + 1
          filesWithSnippets := stats.filesWithSnippets + 1
          snippetsWritten := stats.snippetsWritten + (snippetsOf (contents path)).length } := by
      rw [Stats.count, notEmpty]
      rfl
    rw [counted]
    refine ⟨?_, ?_, ?_, ?_, tally.scopeFile⟩
    · rw [pushed, tally.entries, entriesOf, entriesOf, List.filter_append, List.map_append,
        List.filter_cons_of_pos (by simpa using noBlock)]
      rfl
    · rw [List.length_append, List.length_singleton, tally.filesScanned]
    · rw [pushed, List.length_append, List.length_singleton, tally.filesWithSnippets]
    · have one : Report.snippetCount ⟨[ReportEntry.of path (snippetsOf (contents path))]⟩ =
          (snippetsOf (contents path)).length := rfl
      rw [pushed, Report.snippetCount_append, one, tally.snippetsWritten]

/-- At most the files scanned have snippets. -/
theorem filesWithSnippets_le_filesScanned
    (tally : Tally contents scopeFile scanned report stats) :
    stats.filesWithSnippets ≤ stats.filesScanned := by
  rw [tally.filesWithSnippets, tally.filesScanned, tally.entries, entriesOf, List.length_map]
  exact List.length_filter_le _ _

/-- Each file with snippets has at least one. -/
theorem filesWithSnippets_le_snippetsWritten
    (tally : Tally contents scopeFile scanned report stats) :
    stats.filesWithSnippets ≤ stats.snippetsWritten := by
  have present : ∀ entry ∈ report.entries, entry.snippets ≠ [] := by
    intro entry member
    rw [tally.entries, entriesOf] at member
    obtain ⟨path, kept, rfl⟩ := List.mem_map.mp member
    exact of_decide_eq_true (List.mem_filter.mp kept).2
  rw [tally.filesWithSnippets, tally.snippetsWritten]
  exact Report.length_le_snippetCount present

end Tally

section Files

variable {contents : Text → Bytes}

/-- A file that can be read is decoded, whatever its bytes are. -/
theorem readSource_of_ok {path : Text} {bytes : Bytes} (readable : volume.read path = .ok bytes) :
    readSource volume path = .ok (Utf8.decodeLossy bytes) := by
  rw [readSource, readable]

/-- Scanning files that can be read keeps the report and the numbers in agreement. -/
theorem exists_tally_of_files {paths : List Text}
    (readable : ∀ path ∈ paths, volume.read path = .ok (contents path))
    {scopeFile : Option Text} {scanned : List Text} {report : Report} {stats : Stats}
    (tally : Tally contents scopeFile scanned report stats) :
    ∃ lastReport lastStats, files volume paths report stats = .ok (lastReport, lastStats) ∧
      Tally contents scopeFile (scanned ++ paths) lastReport lastStats := by
  induction paths generalizing scanned report stats with
  | nil => exact ⟨report, stats, rfl, (List.append_nil scanned).symm ▸ tally⟩
  | cons path rest ih =>
      obtain ⟨lastReport, lastStats, ended, agreed⟩ :=
        ih (fun later member => readable later (List.mem_cons_of_mem _ member)) (tally.push path)
      rw [List.append_assoc, List.singleton_append] at agreed
      refine ⟨lastReport, lastStats, ?_, agreed⟩
      have source := readSource_of_ok (readable path List.mem_cons_self)
      simp only [files, source, bind, Except.bind]
      exact ended

/-- The first file that cannot be read ends a scan. -/
theorem files_eq_error {before : List Text}
    (readable : ∀ path ∈ before, ∃ bytes, volume.read path = .ok bytes) {path : Text}
    {cause : AccessFault} (unreadable : volume.read path = .error cause) (after : List Text)
    (report : Report) (stats : Stats) :
    files volume (before ++ path :: after) report stats = .error (.access path cause) := by
  induction before generalizing report stats with
  | nil =>
      rw [List.nil_append, files, readSource, unreadable]
      rfl
  | cons first rest ih =>
      obtain ⟨bytes, read⟩ := readable first List.mem_cons_self
      have source := readSource_of_ok read
      simp only [List.cons_append, files, source, bind, Except.bind]
      exact ih (fun later member => readable later (List.mem_cons_of_mem _ member)) _ _

end Files

/-- The files of a scope can be read unless there is a hindrance. -/
theorem read_of_resolve (wellFormed : volume.WellFormed) {scope : Scope}
    (resolved : Scope.resolve volume root options = .ok scope) {path : Text}
    (member : path ∈ scope.files) :
    ∃ bytes, volume.read path = (volume.hindrance? path).elim (.ok bytes) .error := by
  obtain ⟨found, listed, member⟩ := (Scope.arises_of_resolve resolved).mem_sources member
  exact Scope.read_of_mem_sources wellFormed listed member

/-- A file of a scope can be read if there is no hindrance. -/
theorem exists_read_of_resolve (wellFormed : volume.WellFormed) {scope : Scope}
    (resolved : Scope.resolve volume root options = .ok scope) {path : Text}
    (member : path ∈ scope.files) (free : volume.hindrance? path = none) :
    ∃ bytes, volume.read path = .ok bytes := by
  obtain ⟨bytes, read⟩ := read_of_resolve wellFormed resolved member
  rw [free] at read
  exact ⟨bytes, read⟩

/-- A scan of an empty scope finds no files. -/
theorem workspace_of_no_files {scope : Scope}
    (resolved : Scope.resolve volume root options = .ok scope) (noFiles : scope.files = []) :
    workspace volume root options = .ok (.noFiles scope.declarationPath) := by
  have empty : scope.files.isEmpty = true := List.isEmpty_iff.mpr noFiles
  simp only [workspace, resolved, empty, bind, Except.bind, ↓reduceIte]

/-- What a scan does once its scope is resolved and is not empty. -/
theorem workspace_eq {scope : Scope} (resolved : Scope.resolve volume root options = .ok scope)
    (nonempty : scope.files ≠ []) :
    workspace volume root options =
      (files volume scope.files .empty (.start scope.declarationPath)).map fun ended =>
        .report ended.1 ended.2 := by
  have notEmpty : scope.files.isEmpty = false := List.isEmpty_eq_false_iff.mpr nonempty
  simp only [workspace, resolved, notEmpty, bind, Except.bind, Bool.false_eq_true, ↓reduceIte]
  cases files volume scope.files .empty (.start scope.declarationPath) <;> rfl

/-- Where no files are found, the scope is empty. -/
theorem exists_scope_of_noFiles {scopeFile : Option Text}
    (ended : workspace volume root options = .ok (.noFiles scopeFile)) :
    ∃ scope, Scope.resolve volume root options = .ok scope ∧ scope.files = [] := by
  obtain ⟨scope, resolved, -⟩ := Volume.exists_of_bind_eq_ok ended
  refine ⟨scope, resolved, ?_⟩
  by_contra nonempty
  rw [workspace_eq resolved nonempty] at ended
  cases scanned : files volume scope.files .empty (.start scope.declarationPath) with
  | error fault =>
      rw [scanned] at ended
      cases ended
  | ok results =>
      rw [scanned] at ended
      cases ended

/-- Where a report is found, the scope is not empty. -/
theorem exists_scope_of_report {report : Report} {stats : Stats}
    (ended : workspace volume root options = .ok (.report report stats)) :
    ∃ scope, Scope.resolve volume root options = .ok scope ∧ scope.files ≠ [] := by
  obtain ⟨scope, resolved, -⟩ := Volume.exists_of_bind_eq_ok ended
  refine ⟨scope, resolved, fun noFiles => ?_⟩
  rw [workspace_of_no_files resolved noFiles] at ended
  cases ended

/-- The first file of a scope that there is a hindrance to ends a scan. -/
theorem workspace_of_hindered (wellFormed : volume.WellFormed) {scope : Scope}
    (resolved : Scope.resolve volume root options = .ok scope) {before after : List Text}
    {path : Text} (division : scope.files = before ++ path :: after)
    (free : ∀ earlier ∈ before, volume.hindrance? earlier = none) {cause : AccessFault}
    (hindered : volume.hindrance? path = some cause) :
    workspace volume root options = .error (.access path cause) := by
  have within : ∀ other, other ∈ before ∨ other = path → other ∈ scope.files := by
    intro other either
    rw [division]
    rcases either with earlier | rfl
    · exact List.mem_append_left _ earlier
    · exact List.mem_append_right _ List.mem_cons_self
  have readable : ∀ earlier ∈ before, ∃ bytes, volume.read earlier = .ok bytes := by
    intro earlier member
    exact exists_read_of_resolve wellFormed resolved (within earlier (Or.inl member))
      (free earlier member)
  obtain ⟨bytes, unread⟩ := read_of_resolve wellFormed resolved (within path (Or.inr rfl))
  rw [hindered] at unread
  rw [workspace_eq resolved (List.ne_nil_of_mem (within path (Or.inr rfl))), division,
    files_eq_error readable unread]
  rfl

/-- **What a scan ends with** once its scope is resolved: there is no file exactly if the scope
has none. Otherwise the report and the numbers agree on the files of the scope, or the first of them
that there is a hindrance to is reported. -/
theorem workspace_of_resolve (wellFormed : volume.WellFormed) {scope : Scope}
    (resolved : Scope.resolve volume root options = .ok scope) :
    (∀ scopeFile, workspace volume root options = .ok (.noFiles scopeFile) ↔
      scope.files = [] ∧ scopeFile = scope.declarationPath) ∧
    (scope.files ≠ [] → (∀ path ∈ scope.files, volume.hindrance? path = none) →
      ∃ contents report stats,
        (∀ path ∈ scope.files, volume.read path = .ok (contents path)) ∧
        workspace volume root options = .ok (.report report stats) ∧
        Tally contents scope.declarationPath scope.files report stats ∧
        stats.filesWithSnippets ≤ stats.filesScanned ∧
        stats.filesWithSnippets ≤ stats.snippetsWritten) ∧
    (∀ before path after cause, scope.files = before ++ path :: after →
      (∀ earlier ∈ before, volume.hindrance? earlier = none) →
      volume.hindrance? path = some cause →
      workspace volume root options = .error (.access path cause)) := by
  refine ⟨fun scopeFile => ⟨fun ended => ?_, ?_⟩, fun nonempty free => ?_,
    fun before path after cause division free hindered =>
      workspace_of_hindered wellFormed resolved division free hindered⟩
  · obtain ⟨other, resolvedToo, noFiles⟩ := exists_scope_of_noFiles ended
    cases resolved.symm.trans resolvedToo
    cases ended.symm.trans (workspace_of_no_files resolved noFiles)
    exact ⟨noFiles, rfl⟩
  · rintro ⟨noFiles, rfl⟩
    exact workspace_of_no_files resolved noFiles
  · choose! contents readable using fun path member =>
      exists_read_of_resolve wellFormed resolved member (free path member)
    obtain ⟨report, stats, scanned, tally⟩ :=
      exists_tally_of_files readable (Tally.start contents scope.declarationPath)
    refine ⟨contents, report, stats, readable, ?_, tally,
      tally.filesWithSnippets_le_filesScanned, tally.filesWithSnippets_le_snippetsWritten⟩
    rw [workspace_eq resolved nonempty, scanned]
    rfl

/-- A scan of the sample workspace, whose files can be read, ends with a report in agreement with
its numbers. -/
theorem workspace_of_sampleVolume :
    Scope.sampleVolume.WellFormed ∧
      ∃ scope, Scope.resolve Scope.sampleVolume ['w'] .standard = .ok scope ∧
        scope.files ≠ [] ∧
        (∀ path ∈ scope.files, Scope.sampleVolume.hindrance? path = none) ∧
        ∃ contents report stats,
          workspace Scope.sampleVolume ['w'] .standard = .ok (.report report stats) ∧
          Tally contents scope.declarationPath scope.files report stats := by
  have wellFormed : Scope.sampleVolume.WellFormed := by decide
  have resolved : Scope.resolve Scope.sampleVolume ['w'] .standard =
      .ok ⟨none, none, [['w', '/', 'a', '/', 'x', '.', 's', 'o', 'l'],
        ['w', '/', 'a', '-', 'b', '.', 's', 'o', 'l']]⟩ := rfl
  have free : ∀ path ∈ [['w', '/', 'a', '/', 'x', '.', 's', 'o', 'l'],
      ['w', '/', 'a', '-', 'b', '.', 's', 'o', 'l']],
      Scope.sampleVolume.hindrance? path = none := by decide
  obtain ⟨contents, report, stats, -, ended, tally, -⟩ :=
    (workspace_of_resolve wellFormed resolved).2.1 (by decide) free
  exact ⟨wellFormed, _, resolved, by decide, free, contents, report, stats, ended, tally⟩

/-- Only the file with a block is in the report. -/
example : workspace Scope.sampleVolume ['w'] .standard =
    .ok (.report
      ⟨[⟨['x', '.', 's', 'o', 'l'], ['w', '/', 'a', '/', 'x', '.', 's', 'o', 'l'],
        [['a', 's', 's', 'e', 'm', 'b', 'l', 'y', ' ', '{', '\n', '}']]⟩]⟩
      ⟨2, 1, 1, none⟩) := rfl

/-- A source file that may not be read ends the scan. -/
example : workspace
    { Scope.sampleVolume with
      obstacles := [([['w'], ['a', '-', 'b', '.', 's', 'o', 'l']], .permissionDenied)] }
    ['w'] .standard =
      .error (.access ['w', '/', 'a', '-', 'b', '.', 's', 'o', 'l'] .permissionDenied) := rfl

/-- The name of a source file. -/
def flatName : Text := ['A', '.', 's', 'o', 'l']

/-- A volume with one source file in its only workspace. -/
def flatVolume : Volume where
  root := .directory [(['w'], .directory [(flatName, .file (Utf8.encode Scope.sampleText))])]
  current := []

/-- A scan of a resolved scope does not always end with a report: here the path of the only
file is too long to be read. -/
theorem workspace_fails_below_longRoot :
    flatVolume.WellFormed ∧
      Scope.resolve flatVolume Scope.longRoot .standard =
        .ok ⟨none, none, [Scope.longRoot ++ flatName]⟩ ∧
      workspace flatVolume Scope.longRoot .standard =
        .error (.access (Scope.longRoot ++ flatName) .nameTooLong) := by
  have wellFormed : flatVolume.WellFormed := by decide
  have found : flatVolume.find .reach Scope.longRoot =
      .ok (.directory [(flatName, .file (Utf8.encode Scope.sampleText))]) :=
    Volume.find_append_separators rfl (Scope.byteLength_longRoot ▸ by decide)
  have started := Volume.walkStart_of_find found
  have undeclared : Scope.findDeclaration flatVolume Scope.longRoot Options.standard.scopeFile =
      .ok none := by
    have scopeName : ProperName Options.standard.scopeFile := by decide
    have unreached := Scope.resolve_join_longRoot flatVolume scopeName
    have noFile : flatVolume.isFile (Path.join Scope.longRoot Options.standard.scopeFile) =
        false := by
      rw [Volume.isFile, Volume.find, unreached]
      rfl
    exact Scope.findDeclaration_of_flat noFile started rfl
  have walked : Node.files Scope.longRoot
      (.directory [(flatName, .file (Utf8.encode Scope.sampleText))]) =
        .ok [Scope.longRoot ++ flatName] := by
    rw [Node.files_of_single (Scope.byteLength_longRoot ▸ by decide),
      Scope.join_longRoot (by decide)]
  have listed : Scope.sources flatVolume Scope.longRoot Options.standard.extension =
      .ok [Scope.longRoot ++ flatName] := by
    have ending : Scope.hasExtension Options.standard.extension (Scope.longRoot ++ flatName) =
        true := by
      rw [Scope.hasExtension_iff]
      exact List.IsSuffix.trans (by decide) (List.suffix_append Scope.longRoot flatName)
    rw [Scope.sources, Scope.walk_eq_ok started walked, List.filter_cons_of_pos ending,
      List.filter_nil]
  have resolved : Scope.resolve flatVolume Scope.longRoot .standard =
      .ok ⟨none, none, [Scope.longRoot ++ flatName]⟩ :=
    Scope.resolve_of_undeclared undeclared listed
  refine ⟨wellFormed, resolved, ?_⟩
  have unread : flatVolume.read (Scope.longRoot ++ flatName) = .error .nameTooLong := by
    rw [← Scope.join_longRoot (by decide), Volume.read,
      Scope.resolve_join_longRoot _ (by decide)]
    rfl
  have nothingBefore : ∀ path ∈ ([] : List Text), ∃ bytes, flatVolume.read path = .ok bytes :=
    fun _ member => (List.not_mem_nil member).elim
  have failed := files_eq_error nothingBefore unread [] .empty (.start none)
  rw [workspace_eq resolved (List.cons_ne_nil _ _)]
  exact congrArg _ failed

end Scan

end AssemblyDigest
