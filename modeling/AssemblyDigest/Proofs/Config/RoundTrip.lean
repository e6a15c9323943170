import AssemblyDigest.Config.Load
import AssemblyDigest.Proofs.Toml.Lines
import AssemblyDigest.Proofs.Utf8.Decode
import Mathlib.Data.List.Nodup

/-! # Reading back a written configuration

A configuration is written with one line for each key that it has a value for, in any order of
these keys. Reading one line puts the value of its key in place and leaves the other keys alone
(`AssemblyDigest.Config.value?_put`), so the lines together give the configuration back, whatever
their order (`AssemblyDigest.Config.load_of_written`).
-/

namespace AssemblyDigest

theorem ReportFormat.ofName?_name (format : ReportFormat) : ofName? format.name = some format := by
  cases format <;> rfl

/-- Only the exact name of a format stands for it. -/
theorem ReportFormat.ofName?_eq_some_iff {name : Text} {format : ReportFormat} :
    ofName? name = some format ↔ name = format.name := by
  constructor
  · intro known
    unfold ofName? at known
    split at known
    · next same =>
        cases known
        exact same
    · split at known
      · next same =>
          cases known
          exact same
      · cases known
  · rintro rfl
    exact ofName?_name format

theorem ReportFormat.name_injective : Function.Injective ReportFormat.name := by
  intro first second same
  apply Option.some.inj
  rw [← ofName?_name first, same, ofName?_name]

namespace Config

namespace Field

/-- The keys of configurations. -/
def all : List Field :=
  [.scopeFile, .extension, .language, .format]

theorem ofName?_name (field : Field) : ofName? field.name = some field := by
  cases field <;> decide

theorem name_injective : Function.Injective Field.name := by
  intro first second same
  apply Option.some.inj
  rw [← ofName?_name first, same, ofName?_name]

/-- The names of the settings need no quotes as keys. -/
theorem bareKey (field : Field) : Toml.BareKey field.name := by
  have bare : field.name.all Toml.isBareKeyChar = true := by
    cases field <;> rfl
  exact ⟨by cases field <;> decide, List.all_eq_true.mp bare⟩

end Field

/-- The text of the value of a key. -/
def value? (config : Config) : Field → Option Text
  | .scopeFile => config.scopeFile
  | .extension => config.extension
  | .language => config.language
  | .format => config.format.map ReportFormat.name

/-- The keys that a configuration has values for. -/
def fields (config : Config) : List Field :=
  Field.all.filter fun field => (config.value? field).isSome

/-- The names of keys with their values in a configuration. -/
def lines (config : Config) (order : List Field) : List (Text × Text) :=
  order.filterMap fun field => (config.value? field).map fun content => (field.name, content)

/-- A configuration with the value of a key as in another one. -/
def put (start config : Config) : Field → Config
  | .scopeFile => { start with scopeFile := config.scopeFile }
  | .extension => { start with extension := config.extension }
  | .language => { start with language := config.language }
  | .format => { start with format := config.format }

/-- Configurations with the same settings are the same. -/
theorem ext_value? {first second : Config}
    (same : ∀ field, first.value? field = second.value? field) : first = second := by
  have format : first.format = second.format :=
    Option.map_injective ReportFormat.name_injective (same .format)
  cases first
  cases second
  cases same .scopeFile
  cases same .extension
  cases same .language
  cases format
  rfl

theorem value?_empty (field : Field) : Config.empty.value? field = none := by
  cases field <;> rfl

/-- Putting one setting changes this setting only. -/
theorem value?_put (start config : Config) (field other : Field) :
    (start.put config field).value? other =
      if other = field then config.value? other else start.value? other := by
  cases field <;> cases other <;> rfl

/-- The fields of a configuration are those it has a value for. -/
theorem mem_fields {config : Config} {field : Field} :
    field ∈ config.fields ↔ (config.value? field).isSome := by
  rw [fields, List.mem_filter]
  exact and_iff_right (by cases field <;> decide)

/-- Putting several settings, in any order, changes these settings only. -/
theorem value?_foldl_put (start config : Config) (order : List Field) (other : Field) :
    (order.foldl (·.put config ·) start).value? other =
      if other ∈ order then config.value? other else start.value? other := by
  induction order generalizing start with
  | nil => rfl
  | cons field order ih =>
      rw [List.foldl_cons, ih, value?_put]
      by_cases later : other ∈ order
      · simp [later]
      · simp [later]

section Reading

variable {config : Config} {order : List Field}

theorem nodup_fields : config.fields.Nodup :=
  List.Nodup.filter _ (by decide)

/-- No two lines have the same key. -/
theorem nodup_names (distinct : order.Nodup) : ((config.lines order).map (·.1)).Nodup := by
  rw [lines, List.map_filterMap]
  refine List.Nodup.filterMap (fun first second name firstName secondName => ?_) distinct
  rw [Option.map_map, Option.mem_def, Option.map_eq_some_iff] at firstName secondName
  obtain ⟨_, -, named⟩ := firstName
  obtain ⟨_, -, namedToo⟩ := secondName
  exact Field.name_injective (named.trans namedToo.symm)

/-- The keys of all lines need no quotes. -/
theorem bareKey_of_mem_lines {entry : Text × Text} (member : entry ∈ config.lines order) :
    Toml.BareKey entry.1 := by
  obtain ⟨field, -, named⟩ := List.mem_filterMap.mp member
  obtain ⟨content, -, rfl⟩ := Option.map_eq_some_iff.mp named
  exact field.bareKey

/-- The entry of a line sets its key as in the configuration the line is from. -/
theorem decodeEntry_of_holds {field : Field} {content : Text} {key : Toml.Key} {item : Toml.Item}
    (present : config.value? field = some content)
    (holds : Toml.Holds (key, item) (field.name, content)) (start : Config) :
    decodeEntry start key item = .ok (start.put config field) := by
  obtain ⟨named, span, rfl⟩ := holds
  rw [decodeEntry, named, Field.ofName?_name]
  cases field with
  | scopeFile => simp only [put, decodeText, Except.map, ← present, value?]
  | extension => simp only [put, decodeText, Except.map, ← present, value?]
  | language => simp only [put, decodeText, Except.map, ← present, value?]
  | format =>
      obtain ⟨format, given, rfl⟩ := Option.map_eq_some_iff.mp present
      simp only [put, decodeFormat, decodeName, ReportFormat.ofName?_name, Except.map, given]

/-- Entries that hold the lines of a configuration put its settings, one after the other. -/
theorem decodeEntries_of_holds {entries : Toml.Entries}
    (present : ∀ field ∈ order, (config.value? field).isSome)
    (holds : List.Forall₂ Toml.Holds entries (config.lines order)) (start : Config) :
    decodeEntries start entries = .ok (order.foldl (·.put config ·) start) := by
  induction order generalizing entries start with
  | nil =>
      cases holds
      rfl
  | cons field order ih =>
      obtain ⟨content, given⟩ := Option.isSome_iff_exists.mp (present field List.mem_cons_self)
      rw [lines, List.filterMap_cons_some (by rw [given]; rfl)] at holds
      cases holds with
      | @cons entry _ entries _ first later =>
          rw [decodeEntries, decodeEntry_of_holds given first]
          exact ih (fun other member => present other (List.mem_cons_of_mem _ member)) later _

/-- The entries of all lines give the configuration back, in whatever order they are. -/
theorem decode_of_holds {entries : Toml.Entries} (arranged : order.Perm config.fields)
    (holds : List.Forall₂ Toml.Holds entries (config.lines order)) :
    decode entries = .ok config := by
  have present : ∀ field, field ∈ order ↔ (config.value? field).isSome := fun field =>
    arranged.mem_iff.trans mem_fields
  rw [decode, decodeEntries_of_holds (fun field => (present field).mp) holds]
  congr 1
  refine ext_value? fun field => ?_
  rw [value?_foldl_put, value?_empty]
  split
  · rfl
  · next absent => exact (Option.not_isSome_iff_eq_none.mp (absent ∘ (present field).mpr)).symm

/-- The text of a written configuration is read as this configuration. -/
theorem ofText_of_written {document : Text} (arranged : order.Perm config.fields)
    (written : Toml.Written (config.lines order) document) (path : Text) :
    ofText path document = .ok config := by
  obtain ⟨entries, parsed, holds⟩ :=
    written.exists_parse? (nodup_names (arranged.nodup_iff.mpr nodup_fields))
  rw [ofText, parsed]
  simp only [decode_of_holds arranged holds]
  rfl

/-- A file with the bytes of a text is loaded as the text is read. -/
theorem load_of_text {document path : Text} {volume : Volume}
    (stored : volume.read path = .ok (Utf8.encode document)) :
    load volume path = ofText path document := by
  have decoded : Utf8.decode? (Utf8.encode document) = some document :=
    Utf8.decode?_eq_some_iff.mpr rfl
  simp only [load, Volume.readText, stored, decoded, bind, Except.bind]

/-- The file of a written configuration is loaded as this configuration. -/
theorem load_of_written {document path : Text} {volume : Volume}
    (arranged : order.Perm config.fields) (written : Toml.Written (config.lines order) document)
    (stored : volume.read path = .ok (Utf8.encode document)) : load volume path = .ok config :=
  (load_of_text stored).trans (ofText_of_written arranged written path)

end Reading

end Config

end AssemblyDigest
