import AssemblyDigest.Proofs.Config.RoundTrip

/-! # Configuration files applied in order

Configuration files are loaded and applied one after the other. A file that is loaded sets the
options it has keys for, and one that cannot be loaded sets none. So every option ends as the value
in the last file that was loaded and has its key, or else as it was at first
(`AssemblyDigest.Config.afterFiles_eq`).
-/

namespace AssemblyDigest

/-- The options after configuration files are loaded and applied one after the other, each from the
volume of its time. A file that cannot be loaded leaves the options as they are. -/
def Options.afterFiles (options : Options) : List (Volume × Text) → Options
  | [] => options
  | (volume, path) :: later =>
      match Config.load volume path with
      | .ok config => (options.apply config).afterFiles later
      | .error _ => options.afterFiles later

namespace Config

/-- What a configuration file is: a written configuration, or a file that cannot be loaded. -/
inductive Meaning : Volume × Text → Option Config → Prop
  | written {volume : Volume} {path document : Text} {config : Config} {order : List Field}
      (arranged : order.Perm config.fields) (written : Toml.Written (config.lines order) document)
      (stored : volume.read path = .ok (Utf8.encode document)) :
      Meaning (volume, path) (some config)
  | failing {volume : Volume} {path : Text} {fault : Fault}
      (failed : load volume path = .error fault) : Meaning (volume, path) none

/-- The last value for an option, among configurations and files that could not be loaded. -/
def latest {α : Type} (get : Config → Option α) (meant : List (Option Config)) : Option α :=
  (meant.filterMap fun config => config.bind get).getLast?

/-- A value before others counts only if there is none among these. -/
theorem latest_cons {α : Type} (get : Config → Option α) (config : Option Config)
    (later : List (Option Config)) (initial : α) :
    (latest get (config :: later)).getD initial =
      (latest get later).getD ((config.bind get).getD initial) := by
  unfold latest
  cases given : config.bind get with
  | none => simp only [List.filterMap_cons, given, Option.getD_none]
  | some value => simp only [List.filterMap_cons, given, List.getLast?_cons, Option.getD_some]

/-- One more file changes the options as the configuration in it says, or not at all. -/
theorem Meaning.afterFiles_cons {file : Volume × Text} {meant : Option Config}
    (meaning : Meaning file meant) (options : Options) (later : List (Volume × Text)) :
    options.afterFiles (file :: later) = (options.apply (meant.getD .empty)).afterFiles later := by
  cases meaning with
  | written arranged written stored =>
      rw [Options.afterFiles, load_of_written arranged written stored, Option.getD_some]
  | failing failed =>
      rw [Options.afterFiles, failed, Option.getD_none]
      rfl

/-- After several files each option is the latest one that any of them gives. -/
theorem afterFiles_eq {files : List (Volume × Text)} {meant : List (Option Config)}
    (meanings : List.Forall₂ Meaning files meant) (options : Options) :
    options.afterFiles files =
      { scopeFile := (latest Config.scopeFile meant).getD options.scopeFile
        extension := (latest Config.extension meant).getD options.extension
        language := (latest Config.language meant).getD options.language
        format := (latest Config.format meant).getD options.format } := by
  induction meanings generalizing options with
  | nil => rfl
  | @cons file config files meant first later ih =>
      rw [first.afterFiles_cons, ih]
      simp only [latest_cons]
      cases config <;> rfl

/-- **Main result**: a written configuration is loaded as it was, whatever strings are in it and
whatever the order of its keys. After files of such configurations and files that cannot be loaded,
in any succession, every option is as in the last configuration that has its key, or else as it was
before them. -/
theorem load_written_and_afterFiles :
    (∀ (config : Config) (order : List Field), order.Perm config.fields →
      Toml.Written (config.lines order) (Toml.writeLines (config.lines order)) ∧
      ∀ (document path : Text) (volume : Volume), Toml.Written (config.lines order) document →
        volume.read path = .ok (Utf8.encode document) → load volume path = .ok config) ∧
    ∀ (options : Options) (files : List (Volume × Text)) (meant : List (Option Config)),
      List.Forall₂ Meaning files meant →
        options.afterFiles files =
          { scopeFile := (latest Config.scopeFile meant).getD options.scopeFile
            extension := (latest Config.extension meant).getD options.extension
            language := (latest Config.language meant).getD options.language
            format := (latest Config.format meant).getD options.format } := by
  refine ⟨fun config order arranged => ⟨?_, fun document path volume written stored => ?_⟩,
    fun options files meant meanings => afterFiles_eq meanings options⟩
  · exact Toml.written_writeLines fun entry member => bareKey_of_mem_lines member
  · exact load_of_written arranged written stored

/-- A configuration with characters that have to be escaped, an empty string and a missing key. -/
def sampleConfig : Config where
  scopeFile := some ['"', '\\', '\n']
  extension := some []
  language := none
  format := some .json

/-- A configuration with other keys. -/
def laterConfig : Config where
  scopeFile := none
  extension := some ['.', 'y']
  language := some ['☃']
  format := none

/-- A volume with both configurations, and a file with a key that no configuration has. -/
def configVolume : Volume where
  root := .directory
    [(['a'], .file (Utf8.encode (Toml.writeLines
      (sampleConfig.lines [.format, .extension, .scopeFile])))),
    (['b'], .file (Utf8.encode "threads = 4\n".toList)),
    (['c'], .file (Utf8.encode (Toml.writeLines (laterConfig.lines [.language, .extension]))))]
  current := []

/-- The file in the middle does not load and changes nothing; the last one overrides the first. -/
theorem load_written_and_afterFiles_configVolume :
    load configVolume ['a'] = .ok sampleConfig ∧
      Options.standard.afterFiles
        [(configVolume, ['a']), (configVolume, ['b']), (configVolume, ['c'])] =
        { scopeFile := ['"', '\\', '\n']
          extension := ['.', 'y']
          language := ['☃']
          format := .json } := by
  obtain ⟨written, after⟩ := load_written_and_afterFiles
  have sample : [Field.format, .extension, .scopeFile].Perm sampleConfig.fields := by decide
  have other : [Field.language, .extension].Perm laterConfig.fields := by decide
  have refused : load configVolume ['b'] = .error
      (.config ['b'] "threads = 4\n".toList ⟨⟨12, 5⟩, .unknownField "threads".toList⟩) := rfl
  refine ⟨(written _ _ sample).2 _ _ _ (written _ _ sample).1 rfl, ?_⟩
  exact after _ _ [some sampleConfig, none, some laterConfig]
    (.cons (.written sample (written _ _ sample).1 rfl) (.cons (.failing refused)
      (.cons (.written other (written _ _ other).1 rfl) .nil)))

end Config

end AssemblyDigest
