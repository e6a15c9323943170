import AssemblyDigest.Proofs.Command.Ending
import AssemblyDigest.Proofs.Scan.Reported

/-! # Running the program again

Without an output path a run leaves its report in the directory that it scans. If the report is
neither a source file nor a declaration nor the configuration, the next run finds what this one
found, and so writes the same report to the same place
(`AssemblyDigest.Command.run_again`).
-/

namespace AssemblyDigest

/-- The name of the report is proper in each format. -/
theorem Options.properName_reportName (options : Options) : ProperName options.reportName := by
  rw [Options.reportName]
  cases options.format <;> decide

namespace Command

variable {volume before after : Volume} {request : Request} {root : Text} {options : Options}

/-- A configuration that is loaded stands where its path leads. -/
theorem exists_resolve_of_requestedConfig {config : Config} {path : Text}
    (configured : requestedConfig volume request = .ok config)
    (named : request.config = some path) :
    ∃ place, volume.resolve .reach path = .ok place := by
  rw [requestedConfig, named] at configured
  have loaded := mapError_eq_ok_iff.mp configured
  rw [Config.load] at loaded
  split at loaded
  · cases loaded
  · next document read =>
      obtain ⟨bytes, read, -⟩ := Volume.exists_of_bind_eq_ok read
      obtain ⟨place, resolved, -⟩ := Volume.read_eq_ok_iff.mp read
      exact ⟨place, resolved⟩

/-- The configuration depends on what is read by its path only. -/
theorem requestedConfig_congr
    (same : ∀ path, request.config = some path → after.read path = before.read path) :
    requestedConfig after request = requestedConfig before request := by
  unfold requestedConfig
  cases named : request.config with
  | none => rfl
  | some path =>
      dsimp only
      unfold Config.load Volume.readText
      rw [same path named]

/-- When a run does not depend on the report that it leaves in its workspace: the report is
neither a source file nor a declaration, and the configuration is not read from it. -/
structure SparesReport (volume : Volume) (request : Request) (root : Text) (options : Options) :
    Prop where
  overlooks : Scan.Overlooks options root options.reportName
  config : ∀ path place, request.config = some path →
    volume.outputPlace (options.defaultOutputPath root) = .ok place →
    volume.resolve .reach path ≠ .ok place

/-- Where a scan that found files leaves its report. -/
theorem exists_reported (wellFormed : before.WellFormed) (linkFree : before.LinkFree)
    (rooted : before.canonicalPath request.rootPath = .ok root) {scope : Scope}
    (resolved : Scope.resolve before root options = .ok scope) (present : scope.files ≠ [])
    {bytes : Bytes} (wrote : before.write (options.defaultOutputPath root) bytes = .ok after) :
    ∃ place, root = Volume.pathOf place ∧
      before.outputPlace (options.defaultOutputPath root) = .ok (place ++ [options.reportName]) ∧
      Scan.Reported before after place options.reportName bytes := by
  obtain ⟨place, canonical, rfl⟩ := Volume.canonicalPath_eq_ok_iff.mp rooted
  have proper : ProperPlace place := wellFormed.of_resolve canonical
  have reached := Scan.resolve_pathOf linkFree proper resolved present
  obtain ⟨written, output, rewritten, -⟩ :=
    Volume.rewritten_of_write (Scan.root_ne_link resolved present) wrote
  obtain rfl := linkFree.eq_of_resolve_join proper options.properName_reportName
    (Volume.resolve_of_outputPlace output).1
  exact ⟨place, rfl, output, wellFormed, wellFormed.write wrote, linkFree, reached, rewritten⟩

/-- A request that spares its report finds the same after the report was written. -/
theorem find_of_written (wellFormed : before.WellFormed) (linkFree : before.LinkFree)
    {report : Report} {stats : Stats}
    (found : request.find before = .ok ⟨root, options, .report report stats⟩)
    (spares : SparesReport before request root options) {bytes : Bytes}
    (wrote : before.write (options.defaultOutputPath root) bytes = .ok after) :
    request.find after = .ok ⟨root, options, .report report stats⟩ ∧
      after.write (options.defaultOutputPath root) bytes = .ok after := by
  obtain ⟨rooted, config, configured, chosen, scanned⟩ := Request.find_eq_ok_iff.mp found
  obtain ⟨scope, resolved, present⟩ := Scan.exists_scope_of_report scanned
  obtain ⟨place, rfl, output, reported⟩ :=
    exists_reported wellFormed linkFree rooted resolved present wrote
  refine ⟨Request.find_eq_ok_iff.mpr ⟨?_, config, ?_, chosen, ?_⟩,
    Volume.write_of_rewritten reported.rewritten output⟩
  · obtain ⟨other, canonical, same⟩ := Volume.canonicalPath_eq_ok_iff.mp rooted
    exact Volume.canonicalPath_eq_ok_iff.mpr
      ⟨other, reported.rewritten.resolve_of_before canonical, same⟩
  · rw [← configured]
    apply requestedConfig_congr
    intro path named
    obtain ⟨other, leads⟩ := exists_resolve_of_requestedConfig configured named
    apply reported.rewritten.read_eq leads
    rintro rfl
    exact spares.config path _ named output leads
  · rw [← scanned]
    exact reported.workspace_eq spares.overlooks resolved present

/-- **A run does not feed on its report.** In a volume without links, if a run is not told where
to put the report and spares it, the same run right after it gives the same answer and leaves the
volume as it is. -/
theorem run_again {arguments : List Text}
    (accepted : Invocation.ofArguments? arguments = some (.scan request))
    (unnamed : request.output = none) (unasked : request.toStdout = false)
    (wellFormed : volume.WellFormed) (linkFree : volume.LinkFree)
    (spares : ∀ root config, volume.canonicalPath request.rootPath = .ok root →
      requestedConfig volume request = .ok config →
      SparesReport volume request root (request.options config)) :
    run (run volume arguments).volume arguments = run volume arguments := by
  rw [run_of_scan accepted, run_of_scan accepted]
  have course := course_scan volume request
  generalize ended : scan volume request = response at course ⊢
  cases course with
  | fail failure refused => exact ended
  | noFiles found => exact ended
  | print found asked => cases unasked.symm.trans asked
  | @save root options report stats after path found _ named wrote =>
      rw [unnamed, Option.getD_none] at named
      subst named
      obtain ⟨rooted, config, configured, rfl, -⟩ := Request.find_eq_ok_iff.mp found
      obtain ⟨foundAgain, wroteAgain⟩ := find_of_written wellFormed linkFree found
        (spares root config rooted configured) wrote
      have path : request.outputPath
          ⟨root, request.options config, .report report stats⟩ =
            (request.options config).defaultOutputPath root := by
        rw [Request.outputPath, unnamed, Option.getD_none]
      change scan after request = _
      rw [scan, foundAgain]
      simp only [deliver, unasked, path, wroteAgain, Bool.false_eq_true, ↓reduceIte]

/-- There are no links in the volume with one source file. -/
theorem linkFree_flatVolume : Scan.flatVolume.LinkFree :=
  Node.linkFree_single (Node.linkFree_single (Node.linkFree_file _))

/-- A second scan of one source file finds the report of the first one and replaces it by the
same. -/
theorem run_again_flatVolume :
    Invocation.ofArguments? sampleArguments =
        some (.scan { Request.empty with root := some ['w'] }) ∧
      Scan.flatVolume.WellFormed ∧ Scan.flatVolume.LinkFree ∧
      (run Scan.flatVolume sampleArguments).exitCode = 0 ∧
      run (run Scan.flatVolume sampleArguments).volume sampleArguments =
        run Scan.flatVolume sampleArguments := by
  have accepted : Invocation.ofArguments? sampleArguments =
      some (.scan { Request.empty with root := some ['w'] }) := rfl
  have wellFormed : Scan.flatVolume.WellFormed := by decide
  refine ⟨accepted, wellFormed, linkFree_flatVolume, rfl, ?_⟩
  apply run_again accepted rfl rfl wellFormed linkFree_flatVolume
  intro root config rooted configured
  have canonical : Scan.flatVolume.canonicalPath ['w'] = .ok ['/', 'w'] := rfl
  cases canonical.symm.trans rooted
  cases configured
  exact ⟨⟨by decide, by decide, by decide, by decide⟩, fun path place named => by cases named⟩

end Command

end AssemblyDigest
