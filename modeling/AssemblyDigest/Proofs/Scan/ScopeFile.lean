import AssemblyDigest.Proofs.Scan.Unread
import AssemblyDigest.Proofs.Scan.Workspace
import AssemblyDigest.Proofs.Scope.Resolution

/-! # The declaration that a scan names

The numbers of a scan name the declaration that was found, and reading the files does not change
that. If the declaration was used, they name it. But a declaration that cannot be read, or is not a
text, is named as well, although all source files were scanned: that a scan names none means that it
used none, and the converse holds exactly if what was found can be read as a text
(`AssemblyDigest.Scan.scopeFile_of_report`).
-/

namespace AssemblyDigest

namespace Scan

variable {volume : Volume} {root : Text} {options : Options} {report : Report} {stats : Stats}

theorem scopeFile_count (stats : Stats) (snippets : List Text) :
    (stats.count snippets).scopeFile = stats.scopeFile := by
  unfold Stats.count
  split <;> rfl

/-- Reading files does not change which declaration is named. -/
theorem scopeFile_of_files {paths : List Text} {lastReport : Report} {lastStats : Stats}
    (scanned : files volume paths report stats = .ok (lastReport, lastStats)) :
    lastStats.scopeFile = stats.scopeFile := by
  induction paths generalizing report stats with
  | nil =>
      cases scanned
      rfl
  | cons path rest ih =>
      obtain ⟨text, -, scanned⟩ := Volume.exists_of_bind_eq_ok scanned
      exact (ih scanned).trans (scopeFile_count stats _)

/-- A report names the declaration that was found. -/
theorem exists_located_of_report
    (ended : workspace volume root options = .ok (.report report stats)) :
    ∃ scope, Scope.resolve volume root options = .ok scope ∧
      stats.scopeFile = scope.declarationPath := by
  obtain ⟨scope, resolved, nonempty⟩ := exists_scope_of_report ended
  refine ⟨scope, resolved, ?_⟩
  rw [workspace_eq resolved nonempty] at ended
  cases scanned : files volume scope.files .empty (.start scope.declarationPath) with
  | error fault =>
      rw [scanned] at ended
      cases ended
  | ok results =>
      rw [scanned] at ended
      cases ended
      exact scopeFile_of_files scanned

/-- **Which declaration a report names.** It is that of the scope. If a declaration was used, it is
named; if none is named, all source files were scanned; and if all source files were scanned, none
is named, unless the file that was found cannot be read or does not hold a text. -/
theorem scopeFile_of_report
    (ended : workspace volume root options = .ok (.report report stats)) :
    ∃ scope, Scope.resolve volume root options = .ok scope ∧
      stats.scopeFile = scope.declarationPath ∧
      (∀ declaration, scope.declaration = some declaration → ∃ path text,
        stats.scopeFile = some path ∧ volume.read path = .ok (Utf8.encode text) ∧
        declaration = .parse text ∧
        Scope.declaredSources volume root declaration options.extension = .ok scope.files) ∧
      (stats.scopeFile = none → scope.declaration = none) ∧
      (scope.declaration = none →
        Scope.sources volume root options.extension = .ok scope.files) ∧
      ((scope.declaration = none → stats.scopeFile = none) ↔
        ∀ path, stats.scopeFile = some path →
          ∃ text, volume.read path = .ok (Utf8.encode text)) := by
  obtain ⟨scope, resolved, named⟩ := exists_located_of_report ended
  have arises := Scope.arises_of_resolve resolved
  refine ⟨scope, resolved, named, ?_, ?_, arises.sources_of_undeclared, ?_⟩
  · intro declaration declared
    obtain ⟨path, text, located, read, parsed⟩ :=
      (arises.declaration_eq_some_iff declaration).mp declared
    exact ⟨path, text, named.trans located, read, parsed,
      arises.declaredSources_of_declared declared⟩
  · intro unnamed
    exact arises.declaration_eq_none_iff.mpr (Or.inl (named.symm.trans unnamed))
  · rw [named, arises.declaration_eq_none_iff]
    constructor
    · intro unnamed path located
      by_contra notText
      have useless := unnamed (Or.inr ⟨path, located, not_exists.mp notText⟩)
      cases located.symm.trans useless
    · intro isText useless
      rcases useless with absent | ⟨path, located, unread⟩
      · exact absent
      · obtain ⟨text, read⟩ := isText path located
        exact (unread text read).elim

/-- A scan with a declaration in use names it. -/
theorem scopeFile_of_scopedVolume :
    ∃ report stats, workspace scopedVolume ['w'] .standard = .ok (.report report stats) ∧
      ∃ scope, Scope.resolve scopedVolume ['w'] .standard = .ok scope ∧
        stats.scopeFile = scope.declarationPath ∧
        ∃ declaration, scope.declaration = some declaration := by
  have ended : workspace scopedVolume ['w'] .standard = .ok (.report _ _) := rfl
  obtain ⟨scope, resolved, named, -⟩ := scopeFile_of_report ended
  refine ⟨_, _, ended, scope, resolved, named, ⟨[['i', 'n']]⟩, ?_⟩
  cases resolved
  rfl

/-- A workspace whose declaration is a single byte that begins no character. -/
def undecodableVolume : Volume where
  root := .directory [(['w'], .directory
    [(Options.standard.scopeFile, .file [0xFF]), (flatName, .file [])])]
  current := []

/-- A report may name a declaration although none was used and all source files were scanned. -/
theorem scopeFile_of_undecodableVolume :
    undecodableVolume.WellFormed ∧ ∃ report stats scope,
      workspace undecodableVolume ['w'] .standard = .ok (.report report stats) ∧
      Scope.resolve undecodableVolume ['w'] .standard = .ok scope ∧
      scope.declaration = none ∧
      Scope.sources undecodableVolume ['w'] Options.standard.extension = .ok scope.files ∧
      stats.scopeFile = some (Path.join ['w'] Options.standard.scopeFile) ∧
      ¬ (stats.scopeFile = none ↔ scope.declaration = none) := by
  have wellFormed : undecodableVolume.WellFormed := by decide
  refine ⟨wellFormed, _, _, _, rfl, rfl, rfl, rfl, rfl, ?_⟩
  intro same
  cases same.mpr rfl

end Scan

end AssemblyDigest
