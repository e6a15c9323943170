import AssemblyDigest.Proofs.Command.Choices
import AssemblyDigest.Proofs.Command.Ending

/-! # Options in layers

Each option of a scan has a standard value. A configuration that has its key overrides this value,
and an argument that gives it overrides both. The options do not influence each other, and the order
of the arguments has no influence at all (`AssemblyDigest.Command.run_of_written`).
-/

namespace AssemblyDigest

namespace Command

/-- A value from the highest layer that has one: the arguments, the configuration, the standard. -/
def layered {α : Type} (given configured : Option α) (standard : α) : α :=
  given.getD (configured.getD standard)

/-- The options of a scan that is asked for by the given choices under a configuration. -/
def layeredOptions (choices : List Choice) (config : Config) : Options where
  scopeFile := layered (valueOf? .scopeFile choices) config.scopeFile Options.standard.scopeFile
  extension := layered (valueOf? .extension choices) config.extension Options.standard.extension
  language := layered (valueOf? .language choices) config.language Options.standard.language
  format := layered ((valueOf? .format choices).bind ReportFormat.ofName?) config.format
    Options.standard.format

/-- The configuration at a path is loaded; without a path it is the empty one. -/
def Loads (volume : Volume) (path : Option Text) (config : Config) : Prop :=
  match path with
  | none => config = .empty
  | some path => Config.load volume path = .ok config

/-- What a request finds if it scans its root under the given options. -/
def Request.findUnder (request : Request) (volume : Volume) (options : Options) :
    Except Failure Finding := do
  let root ← canonicalRoot volume request
  let outcome ←
    (Scan.workspace volume root options).mapError (.ofFault "scan workspace failed".toList)
  .ok ⟨root, options, outcome⟩

variable {volume : Volume} {request : Request} {choices : List Choice} {config : Config}

/-- The configuration that is asked for is the one that its path gives. -/
theorem requestedConfig_of_loads (loads : Loads volume request.config config) :
    requestedConfig volume request = .ok config := by
  unfold requestedConfig
  unfold Loads at loads
  cases named : request.config with
  | none =>
      rw [named] at loads
      exact congrArg Except.ok loads.symm
  | some path =>
      rw [named] at loads
      exact mapError_eq_ok_iff.mpr loads

/-- A format is determined by its name. -/
theorem Request.format_eq (request : Request) :
    request.overrides.format = (request.value? .format).bind ReportFormat.ofName? := by
  rw [value?]
  cases request.overrides.format with
  | none => rfl
  | some format => exact (ReportFormat.ofName?_name format).symm

/-- The options of a request are layered if its settings are those of the choices. -/
theorem options_eq_layeredOptions (values : ∀ name, request.value? name = valueOf? name choices)
    (config : Config) : request.options config = layeredOptions choices config := by
  have scopeFile : request.overrides.scopeFile = valueOf? .scopeFile choices := values .scopeFile
  have extension : request.overrides.extension = valueOf? .extension choices := values .extension
  have language : request.overrides.language = valueOf? .language choices := values .language
  have format : request.overrides.format =
      (valueOf? .format choices).bind ReportFormat.ofName? := by
    rw [← values .format, ← request.format_eq]
  simp only [Request.options, Options.apply, layeredOptions, layered, scopeFile, extension,
    language, format]

/-- What a request finds depends on its choices and its configuration through the layered options
only. -/
theorem find_eq_findUnder (values : ∀ name, request.value? name = valueOf? name choices)
    (loads : Loads volume request.config config) :
    request.find volume = request.findUnder volume (layeredOptions choices config) := by
  simp only [Request.find, requestedConfig_of_loads loads, ← options_eq_layeredOptions values]
  rfl

/-- Choices that are accepted, for different slots and not at odds ask for a scan with their
values. -/
theorem exists_request {arguments : List Text} (written : Written choices arguments)
    (accepted : ∀ choice ∈ choices, choice.accepted = true)
    (distinct : (choices.map Choice.slot).Nodup)
    (compatible : .print ∈ choices → valueOf? .output choices = none) :
    ∃ request, Invocation.ofArguments? ("scan".toList :: arguments) = some (.scan request) ∧
      (∀ name, request.value? name = valueOf? name choices) ∧
      request.toStdout = decide (.print ∈ choices) := by
  obtain ⟨taken, run, values, printing⟩ := Request.empty.exists_foldlM_take accepted distinct
    (fun choice _ => by cases choice.slot with
      | none => rfl
      | some name => cases name <;> rfl)
  have values : ∀ name, taken.value? name = valueOf? name choices := by
    intro name
    rw [values]
    cases name <;> rfl
  have printing : taken.toStdout = decide (.print ∈ choices) := printing
  refine ⟨taken, ?_, values, printing⟩
  have finish : taken.finish = some (.scan taken) := by
    have output : taken.output = valueOf? .output choices := values .output
    rw [Request.finish, printing, output]
    by_cases asked : .print ∈ choices
    · rw [compatible asked, Option.isSome_none, Bool.and_false, if_neg Bool.false_ne_true]
    · rw [decide_eq_false asked, Bool.false_and, if_neg Bool.false_ne_true]
  change readScan .empty arguments = _
  rw [written.readScan_eq, run, Option.bind_some, finish]

/-- **Options in layers.** Choices that are accepted, each made at most once, and that do not ask to
print a report and to write it to a path at once, ask for a scan. Each option of this scan is the
value that is chosen, else the value in the configuration, else the standard value, independently of
the other options. If choices are made in another order or written in the other way, the run gives
the same answer and leaves the same volume. -/
theorem run_of_written :
    (∀ (choices : List Choice) (arguments : List Text), Written choices arguments →
      (∀ choice ∈ choices, choice.accepted = true) → (choices.map Choice.slot).Nodup →
      (.print ∈ choices → valueOf? .output choices = none) →
      ∃ request : Request,
        Invocation.ofArguments? ("scan".toList :: arguments) = some (.scan request) ∧
        request.root = valueOf? .root choices ∧ request.output = valueOf? .output choices ∧
        request.config = valueOf? .config choices ∧
        request.toStdout = decide (.print ∈ choices) ∧
        ∀ (volume : Volume) (config : Config), Loads volume (valueOf? .config choices) config →
          request.find volume = request.findUnder volume (layeredOptions choices config)) ∧
    ∀ (choices others : List Choice) (arguments otherArguments : List Text),
      Written choices arguments → Written others otherArguments → choices.Perm others →
      ∀ volume, run volume ("scan".toList :: arguments) =
        run volume ("scan".toList :: otherArguments) := by
  refine ⟨fun choices arguments written accepted distinct compatible => ?_,
    fun choices others arguments otherArguments written writtenToo arranged volume => ?_⟩
  · obtain ⟨request, read, values, printing⟩ :=
      exists_request written accepted distinct compatible
    refine ⟨request, read, values .root, values .output, values .config, printing,
      fun volume config loads => ?_⟩
    rw [← values .config] at loads
    exact find_eq_findUnder values loads
  · have same : Invocation.ofArguments? ("scan".toList :: arguments) =
        Invocation.ofArguments? ("scan".toList :: otherArguments) :=
      written.readScan_of_perm writtenToo arranged .empty
    rw [run, run, same]

/-- Choices that leave two options to the configuration and one to the standard. -/
def sampleChoices : List Choice :=
  [.setting .root ['w'], .setting .language ['z'], .print, .setting .config ['c']]

/-- The same choices in another order. -/
def rearrangedChoices : List Choice :=
  [.setting .config ['c'], .print, .setting .root ['w'], .setting .language ['z']]

/-- A volume with a configuration and a workspace. -/
def layeredVolume : Volume where
  root := .directory
    [(['c'], .file (Utf8.encode "extension = '.x'\nlanguage = 'y'\n".toList)),
    (['w'], .directory [(['a', '.', 'x'], .file (Utf8.encode "assembly \x7b\n\x7d\n".toList))])]
  current := []

/-- The sample choices override one of the two settings of their configuration, in either order. -/
theorem run_of_sampleChoices :
    Loads layeredVolume (valueOf? .config sampleChoices)
        { Config.empty with extension := some ['.', 'x'], language := some ['y'] } ∧
      layeredOptions sampleChoices
        { Config.empty with extension := some ['.', 'x'], language := some ['y'] } =
          ⟨".scope".toList, ['.', 'x'], ['z'], .markdown⟩ ∧
      (∃ request, Invocation.ofArguments? ["scan".toList, "--root".toList, ['w'],
          "--language=z".toList, "--stdout".toList, "--config=c".toList] = some (.scan request) ∧
        request.find layeredVolume =
          request.findUnder layeredVolume ⟨".scope".toList, ['.', 'x'], ['z'], .markdown⟩) ∧
      run layeredVolume ["scan".toList, "--root".toList, ['w'], "--language=z".toList,
          "--stdout".toList, "--config=c".toList] =
        run layeredVolume ["scan".toList, "--config".toList, ['c'], "--stdout".toList,
          "--root=w".toList, "--language".toList, ['z']] ∧
      (run layeredVolume ["scan".toList, "--root".toList, ['w'], "--language=z".toList,
          "--stdout".toList, "--config=c".toList]).stdout =
        "## a.x\n\n```z\nassembly \x7b\n\x7d\n```\n\n".toList := by
  obtain ⟨layers, arrangements⟩ := run_of_written
  have written : Written sampleChoices ["--root".toList, ['w'], "--language=z".toList,
      "--stdout".toList, "--config=c".toList] :=
    .cons (.separate rfl) (.cons .attached (.cons .print (.cons .attached .nil)))
  have rearranged : Written rearrangedChoices ["--config".toList, ['c'], "--stdout".toList,
      "--root=w".toList, "--language".toList, ['z']] :=
    .cons (.separate rfl) (.cons .print (.cons .attached (.cons (.separate rfl) .nil)))
  have loads : Loads layeredVolume (valueOf? .config sampleChoices)
      { Config.empty with extension := some ['.', 'x'], language := some ['y'] } := rfl
  have options : layeredOptions sampleChoices
      { Config.empty with extension := some ['.', 'x'], language := some ['y'] } =
        ⟨".scope".toList, ['.', 'x'], ['z'], .markdown⟩ := by decide
  have arranged : sampleChoices.Perm rearrangedChoices := by decide
  obtain ⟨request, read, -, -, -, -, found⟩ :=
    layers sampleChoices _ written (by decide) (by decide) (fun _ => rfl)
  refine ⟨loads, options, ⟨request, read, ?_⟩, ?_, by decide +kernel⟩
  · rw [← options]
    exact found layeredVolume _ loads
  · exact arrangements _ _ _ _ written rearranged arranged layeredVolume

end Command

end AssemblyDigest
