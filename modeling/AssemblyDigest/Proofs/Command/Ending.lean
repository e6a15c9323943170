import AssemblyDigest.Command.Run
import AssemblyDigest.Proofs.Scan.Receiver
import AssemblyDigest.Proofs.Scan.Workspace
import AssemblyDigest.Proofs.Volume.Written
import Mathlib.Logic.ExistsUnique

/-! # How a run ends

A run of the `scan` command takes one of four courses (`AssemblyDigest.Command.Course`): it
fails because the request cannot be served (`AssemblyDigest.Command.Refused`), finds no file,
prints the report or saves it. Only the last one changes the volume. What an ending shows from
outside is said without the program's own steps, by the scope of the canonical root and by what a
scan of it writes (`AssemblyDigest.Command.Ends`); every run shows exactly one ending
(`AssemblyDigest.Command.existsUnique_ends`).
-/

namespace AssemblyDigest

namespace Scan

variable {volume : Volume} {root : Text} {options : Options}

/-- Where there are files to scan, the volume is not a mere link. -/
theorem root_ne_link {scope : Scope} (resolved : Scope.resolve volume root options = .ok scope)
    (nonempty : scope.files ≠ []) (target : Text) : volume.root ≠ .link target := by
  intro linked
  obtain ⟨path, member⟩ := List.exists_mem_of_ne_nil _ nonempty
  obtain ⟨found, listed, member⟩ := (Scope.arises_of_resolve resolved).mem_sources member
  obtain ⟨start, walked, started, files, rfl⟩ := Scope.exists_of_sources listed
  have within : path ∈ walked := (List.mem_filter.mp member).1
  have plain : ∀ aim, start ≠ .link aim := by
    intro aim same
    rw [same] at files
    cases files
    exact List.not_mem_nil within
  rcases Volume.find_of_walkStart started with ⟨aim, same, -⟩ | reached
  · exact plain aim same
  · obtain ⟨place, -, stands⟩ := Volume.find_eq_ok_iff.mp reached
    rw [Volume.at?, linked] at stands
    cases place with
    | nil =>
        cases stands
        exact plain target rfl
    | cons name place => cases stands

/-- Without a limit, the whole report is written. -/
theorem write_of_report {report : Report} {stats : Stats}
    (ended : workspace volume root options = .ok (.report report stats)) :
    write volume root none options = ⟨Utf8.encode (report.render options), .ok (some stats)⟩ := by
  rw [write, writeTo, ended]
  simp only [emit, Receiver.ofRoom, Receiver.send_unlimited, ↓reduceIte]

/-- Of a scan that fails, nothing is written. -/
theorem write_of_fault {fault : Fault} (failed : workspace volume root options = .error fault)
    (room : Option Nat) : write volume root room options = ⟨[], .error fault⟩ := by
  rw [write, writeTo, failed]

end Scan

namespace Command

variable {volume : Volume} {request : Request} {response : Response} {finding : Finding}

theorem mapError_eq_ok_iff {ε δ α : Type} {result : Except ε α} {change : ε → δ} {value : α} :
    result.mapError change = .ok value ↔ result = .ok value := by
  cases result <;> simp [Except.mapError]

/-- What a request finds is what a scan of the canonical root under its options ends with. -/
theorem Request.find_eq_ok_iff :
    request.find volume = .ok finding ↔
      volume.canonicalPath request.rootPath = .ok finding.root ∧
        ∃ config, requestedConfig volume request = .ok config ∧
          finding.options = request.options config ∧
          Scan.workspace volume finding.root finding.options = .ok finding.outcome := by
  constructor
  · intro found
    obtain ⟨root, rooted, found⟩ := Volume.exists_of_bind_eq_ok found
    obtain ⟨config, configured, found⟩ := Volume.exists_of_bind_eq_ok found
    obtain ⟨outcome, scanned, found⟩ := Volume.exists_of_bind_eq_ok found
    cases found
    exact ⟨mapError_eq_ok_iff.mp rooted, config, configured, rfl, mapError_eq_ok_iff.mp scanned⟩
  · rintro ⟨rooted, config, configured, chosen, scanned⟩
    rw [chosen] at scanned
    have rooted : canonicalRoot volume request = .ok finding.root := mapError_eq_ok_iff.mpr rooted
    simp only [Request.find, rooted, configured, scanned, bind, Except.bind, Except.mapError]
    rw [← chosen]

/-- What a request is about: the canonical root, the options and the scope of both. -/
structure About (volume : Volume) (request : Request) (root : Text) (options : Options)
    (scope : Scope) : Prop where
  rooted : volume.canonicalPath request.rootPath = .ok root
  configured : ∃ config, requestedConfig volume request = .ok config ∧
    options = request.options config
  resolved : Scope.resolve volume root options = .ok scope

/-- A request is about one scope only. -/
theorem About.scope_eq {root otherRoot : Text} {options otherOptions : Options}
    {scope other : Scope} (about : About volume request root options scope)
    (aboutOther : About volume request otherRoot otherOptions other) : scope = other := by
  obtain ⟨rooted, ⟨config, configured, rfl⟩, resolved⟩ := about
  obtain ⟨otherRooted, ⟨otherConfig, otherConfigured, rfl⟩, otherResolved⟩ := aboutOther
  cases rooted.symm.trans otherRooted
  cases configured.symm.trans otherConfigured
  exact Except.ok.inj (resolved.symm.trans otherResolved)

/-- What was found is about the scope of its root and options. -/
theorem About.of_find {scope : Scope} (found : request.find volume = .ok finding)
    (resolved : Scope.resolve volume finding.root finding.options = .ok scope) :
    About volume request finding.root finding.options scope := by
  obtain ⟨rooted, config, configured, chosen, -⟩ := Request.find_eq_ok_iff.mp found
  exact ⟨rooted, ⟨config, configured, chosen⟩, resolved⟩

/-- Why a request cannot be served. -/
inductive Refused (volume : Volume) (request : Request) : Prop
  /-- The root leads nowhere. -/
  | root {cause : AccessFault} (rootless : volume.canonicalPath request.rootPath = .error cause)
  /-- The configuration cannot be loaded. -/
  | config {root : Text} {failure : Failure}
      (rooted : volume.canonicalPath request.rootPath = .ok root)
      (unconfigured : requestedConfig volume request = .error failure)
  /-- The scan fails. -/
  | scan {root : Text} {config : Config} {fault : Fault}
      (rooted : volume.canonicalPath request.rootPath = .ok root)
      (configured : requestedConfig volume request = .ok config)
      (failed : Scan.write volume root none (request.options config) = ⟨[], .error fault⟩)
  /-- There are files, but no report can be written where the output path leads. -/
  | output {root : Text} {options : Options} {scope : Scope} {cause : AccessFault}
      (about : About volume request root options scope) (nonempty : scope.files ≠ [])
      (unasked : request.toStdout = false)
      (unwritable : volume.outputPlace
        (request.output.getD (options.defaultOutputPath root)) = .error cause)

/-- A request is refused where nothing is found because of a failure. -/
theorem refused_of_find_error {failure : Failure} (failed : request.find volume = .error failure) :
    Refused volume request := by
  cases rooted : volume.canonicalPath request.rootPath with
  | error cause => exact .root rooted
  | ok root =>
      cases configured : requestedConfig volume request with
      | error reason => exact .config rooted configured
      | ok config =>
          cases scanned : Scan.workspace volume root (request.options config) with
          | error fault => exact .scan rooted configured (Scan.write_of_fault scanned none)
          | ok outcome =>
              have found : request.find volume = .ok ⟨root, request.options config, outcome⟩ :=
                Request.find_eq_ok_iff.mpr ⟨rooted, config, configured, rfl, scanned⟩
              cases failed.symm.trans found

/-- Files cannot be written only where no place for them is found. -/
theorem outputPlace_of_write_error {path : Text} {bytes : Bytes} {cause : AccessFault}
    (failed : volume.write path bytes = .error cause) : volume.outputPlace path = .error cause := by
  rw [Volume.write] at failed
  cases output : volume.outputPlace path with
  | error reason =>
      rw [output] at failed
      cases failed
      rfl
  | ok place =>
      rw [output] at failed
      cases failed

/-- The courses that a `scan` command can take. -/
inductive Course (volume : Volume) (request : Request) : Response → Prop
  | fail (failure : Failure) (refused : Refused volume request) :
      Course volume request (.fail volume failure)
  | noFiles {root : Text} {options : Options} {scopeFile : Option Text}
      (found : request.find volume = .ok ⟨root, options, .noFiles scopeFile⟩) :
      Course volume request (.print volume (noFilesLine options))
  | print {root : Text} {options : Options} {report : Report} {stats : Stats}
      (found : request.find volume = .ok ⟨root, options, .report report stats⟩)
      (asked : request.toStdout = true) :
      Course volume request (.print volume (report.render options))
  | save {root : Text} {options : Options} {report : Report} {stats : Stats} {after : Volume}
      {path : Text} (found : request.find volume = .ok ⟨root, options, .report report stats⟩)
      (unasked : request.toStdout = false)
      (named : path = request.output.getD (options.defaultOutputPath root))
      (wrote : volume.write path (Utf8.encode (report.render options)) = .ok after) :
      Course volume request (.save after path (Utf8.encode (report.render options)))

/-- The `scan` command takes one of the courses, whatever the volume and the request. -/
theorem course_scan (volume : Volume) (request : Request) :
    Course volume request (scan volume request) := by
  rw [scan]
  cases found : request.find volume with
  | error failure => exact .fail failure (refused_of_find_error found)
  | ok finding =>
      obtain ⟨root, options, outcome⟩ := finding
      cases outcome with
      | noFiles scopeFile => exact .noFiles found
      | report report stats =>
          dsimp only
          rw [deliver]
          cases asked : request.toStdout with
          | true => exact .print found asked
          | false =>
              rw [if_neg Bool.false_ne_true]
              dsimp only
              split
              · next after wrote => exact .save found asked rfl wrote
              · next cause failed =>
                  obtain ⟨-, config, -, -, scanned⟩ := Request.find_eq_ok_iff.mp found
                  obtain ⟨scope, resolved, nonempty⟩ := Scan.exists_scope_of_report scanned
                  exact .fail _ (.output (.of_find found resolved) nonempty asked
                    (outputPlace_of_write_error failed))

/-- The endings of a run. -/
inductive Ending where
  | failed
  | noFiles
  | printed
  | saved
  deriving DecidableEq, Repr

/-- What is seen of a run with an ending. -/
inductive Ends (volume : Volume) (request : Request) (response : Response) : Ending → Prop
  /-- The request cannot be served, and nothing is printed or changed. -/
  | failed (refused : Refused volume request) (code : response.exitCode = 1)
      (silent : response.stdout = [])
      (unsaved : response.saved = none) (unchanged : response.volume = volume) :
      Ends volume request response .failed
  /-- The scope has no file, and that is all that is said. -/
  | noFiles {root : Text} {options : Options} {scope : Scope}
      (about : About volume request root options scope) (empty : scope.files = [])
      (code : response.exitCode = 0)
      (line : response.stdout =
        "No ".toList ++ Text.capitalise options.language ++ " files found.\n".toList)
      (unsaved : response.saved = none) (unchanged : response.volume = volume) :
      Ends volume request response .noFiles
  /-- The scope has files, and what a scan writes is printed. -/
  | printed {root : Text} {options : Options} {scope : Scope} {stats : Stats}
      (about : About volume request root options scope) (nonempty : scope.files ≠ [])
      (asked : request.toStdout = true) (code : response.exitCode = 0)
      (report : Scan.write volume root none options =
        ⟨Utf8.encode response.stdout, .ok (some stats)⟩)
      (unsaved : response.saved = none) (unchanged : response.volume = volume) :
      Ends volume request response .printed
  /-- The scope has files, and what a scan writes is put where the output path leads, while all
  else stays as it was. -/
  | saved {root : Text} {options : Options} {scope : Scope} {stats : Stats} {path : Text}
      {bytes : Bytes} {place : Place}
      (about : About volume request root options scope) (nonempty : scope.files ≠ [])
      (unasked : request.toStdout = false) (code : response.exitCode = 0)
      (report : Scan.write volume root none options = ⟨bytes, .ok (some stats)⟩)
      (named : path = request.output.getD (options.defaultOutputPath root))
      (output : volume.outputPlace path = .ok place)
      (line : response.stdout = "Assembly snippets saved to ".toList ++ path ++ ['\n'])
      (saved : response.saved = some ⟨path, bytes⟩)
      (rewritten : volume.Rewritten response.volume place bytes)
      (leads : response.volume.resolve .reach path = .ok place)
      (readable : volume.obstacle? place = none → response.volume.read path = .ok bytes) :
      Ends volume request response .saved

/-- A run shows one ending at most. -/
theorem Ends.unique {ending other : Ending} (ends : Ends volume request response ending)
    (endsToo : Ends volume request response other) : ending = other := by
  have codes : response.exitCode = 1 → response.exitCode ≠ 0 := fun one none => by
    cases one.symm.trans none
  cases ends with
  | failed refused code =>
      cases endsToo with
      | failed => rfl
      | noFiles _ _ otherCode => exact (codes code otherCode).elim
      | printed _ _ _ otherCode => exact (codes code otherCode).elim
      | saved _ _ _ otherCode => exact (codes code otherCode).elim
  | noFiles about empty code =>
      cases endsToo with
      | failed _ otherCode => exact (codes otherCode code).elim
      | noFiles => rfl
      | printed aboutOther nonempty => exact (nonempty (about.scope_eq aboutOther ▸ empty)).elim
      | saved aboutOther nonempty => exact (nonempty (about.scope_eq aboutOther ▸ empty)).elim
  | printed about nonempty asked code =>
      cases endsToo with
      | failed _ otherCode => exact (codes otherCode code).elim
      | noFiles aboutOther empty => exact (nonempty (about.scope_eq aboutOther ▸ empty)).elim
      | printed => rfl
      | saved _ _ unasked => cases asked.symm.trans unasked
  | saved about nonempty unasked code =>
      cases endsToo with
      | failed _ otherCode => exact (codes otherCode code).elim
      | noFiles aboutOther empty => exact (nonempty (about.scope_eq aboutOther ▸ empty)).elim
      | printed _ _ asked => cases asked.symm.trans unasked
      | saved => rfl

/-- Each course shows one of the endings. -/
theorem Course.exists_ends (course : Course volume request response) :
    ∃ ending, Ends volume request response ending := by
  cases course with
  | fail failure refused => exact ⟨.failed, .failed refused rfl rfl rfl rfl⟩
  | @noFiles root options scopeFile found =>
      obtain ⟨-, config, -, -, scanned⟩ := Request.find_eq_ok_iff.mp found
      obtain ⟨scope, resolved, empty⟩ := Scan.exists_scope_of_noFiles scanned
      exact ⟨.noFiles, .noFiles (.of_find found resolved) empty rfl rfl rfl rfl⟩
  | @print root options report stats found asked =>
      obtain ⟨-, config, -, -, scanned⟩ := Request.find_eq_ok_iff.mp found
      obtain ⟨scope, resolved, nonempty⟩ := Scan.exists_scope_of_report scanned
      exact ⟨.printed, .printed (.of_find found resolved) nonempty asked rfl
        (Scan.write_of_report scanned) rfl rfl⟩
  | @save root options report stats after path found unasked named wrote =>
      obtain ⟨-, config, -, -, scanned⟩ := Request.find_eq_ok_iff.mp found
      obtain ⟨scope, resolved, nonempty⟩ := Scan.exists_scope_of_report scanned
      obtain ⟨place, output, rewritten, leads⟩ :=
        Volume.rewritten_of_write (Scan.root_ne_link resolved nonempty) wrote
      exact ⟨.saved, .saved (.of_find found resolved) nonempty unasked rfl
        (Scan.write_of_report scanned) named output rfl rfl rewritten leads
        (rewritten.read_written leads)⟩

/-- Arguments that ask for a scan are served by the `scan` command. -/
theorem run_of_scan {arguments : List Text}
    (accepted : Invocation.ofArguments? arguments = some (.scan request)) (volume : Volume) :
    run volume arguments = scan volume request := by
  rw [run, accepted]

/-- **How a run ends.** With arguments that ask for a scan, a run shows exactly one ending: it
fails for a reason and without a trace, says that there are no files, prints what a scan of the
canonical root writes, or saves just that in the one file that the output path leads to. -/
theorem existsUnique_ends {arguments : List Text}
    (accepted : Invocation.ofArguments? arguments = some (.scan request)) (volume : Volume) :
    ∃! ending, Ends volume request (run volume arguments) ending := by
  rw [run_of_scan accepted]
  obtain ⟨ending, ends⟩ := (course_scan volume request).exists_ends
  exact ⟨ending, ends, fun other endsToo => endsToo.unique ends⟩

/-- The arguments that ask for a scan of the sample workspace. -/
def sampleArguments : List Text := ["scan".toList, "--root".toList, ['w']]

/-- A run on the sample workspace shows exactly one ending. -/
theorem existsUnique_ends_sampleArguments :
    Invocation.ofArguments? sampleArguments =
        some (.scan { Request.empty with root := some ['w'] }) ∧
      (run Scope.sampleVolume sampleArguments).exitCode = 0 ∧
      ∃! ending, Ends Scope.sampleVolume { Request.empty with root := some ['w'] }
        (run Scope.sampleVolume sampleArguments) ending := by
  have accepted : Invocation.ofArguments? sampleArguments =
      some (.scan { Request.empty with root := some ['w'] }) := rfl
  exact ⟨accepted, rfl, existsUnique_ends accepted Scope.sampleVolume⟩

end Command

end AssemblyDigest
