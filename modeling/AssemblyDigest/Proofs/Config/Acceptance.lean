import AssemblyDigest.Proofs.Config.RoundTrip
import AssemblyDigest.Proofs.Toml.Names
import AssemblyDigest.Proofs.Volume.Reach

/-! # Which documents are configurations

A document is a configuration if every entry of its top table has a known name and an item that
gives a value under this name. One entry is read exactly if this holds of it, and then it sets the
option of its name and no other (`AssemblyDigest.Config.decodeEntry_eq_ok_iff`). As no name is in
the top table twice, the whole document is read exactly if it holds of every entry, and then each
option has the value that the document gives to it (`AssemblyDigest.Config.load_of_document`). An
empty array counts as well as an empty table under the name of a format
(`AssemblyDigest.Config.load_accepts_emptyArray`).
-/

namespace AssemblyDigest

namespace Config

/-- A table without entries. -/
inductive IsEmptyTable : Toml.Item → Prop
  | table (form : Toml.TableForm) : IsEmptyTable (.table form [])

/-- A table or an array without entries. -/
inductive IsUnit : Toml.Item → Prop
  | table (form : Toml.TableForm) : IsUnit (.table form [])
  | array (span : Toml.Span) : IsUnit (.array span [])

/-- The text that an item gives under a key: a string, or the name of a format. A format may also be
the only key of a table, with an item under it that has nothing in it. -/
inductive Gives (IsNothing : Toml.Item → Prop) : Field → Toml.Item → Text → Prop
  | text {field : Field} (other : field ≠ .format) (span : Toml.Span) (content : Text) :
      Gives IsNothing field (.scalar span (.text content)) content
  | name (span : Toml.Span) (format : ReportFormat) :
      Gives IsNothing .format (.scalar span (.text format.name)) format.name
  | unit {key : Toml.Key} {inner : Toml.Item} (form : Toml.TableForm) (format : ReportFormat)
      (named : key.name = format.name) (nothing : IsNothing inner) :
      Gives IsNothing .format (.table form [(key, inner)]) format.name

/-- Every entry has a known name and gives a value under it. -/
def Acceptable (IsNothing : Toml.Item → Prop) (entries : Toml.Entries) : Prop :=
  ∀ entry ∈ entries, ∃ field : Field, ∃ content,
    entry.1.name = field.name ∧ Gives IsNothing field entry.2 content

/-- The text that entries give under a key. -/
def GivenBy (entries : Toml.Entries) (field : Field) (content : Text) : Prop :=
  ∃ entry ∈ entries, entry.1.name = field.name ∧ Gives IsUnit field entry.2 content

/-! ### Single entries -/

section Entry

variable {config next : Config} {key : Toml.Key} {item : Toml.Item} {span : Toml.Span}
  {field : Field} {content name : Text} {format : ReportFormat}

/-- A name that stands for a setting is the name of that setting. -/
theorem Field.eq_of_ofName? (known : Field.ofName? name = some field) : name = field.name := by
  have found := List.find?_some known
  exact (of_decide_eq_true found).symm

/-- A name stands for no setting exactly if no setting has it. -/
theorem Field.ofName?_eq_none_iff :
    Field.ofName? name = none ↔ ∀ field : Field, name ≠ field.name := by
  constructor
  · rintro unknown field rfl
    rw [ofName?_name] at unknown
    cases unknown
  · intro different
    cases known : Field.ofName? name with
    | none => rfl
    | some field => exact (different field (eq_of_ofName? known)).elim

/-- Settings other than the format are read from strings and from nothing else. -/
theorem decodeText_eq_ok_iff (other : field ≠ .format) :
    decodeText key item = .ok content ↔ Gives IsUnit field item content := by
  constructor
  · intro read
    unfold decodeText at read
    split at read
    · next span text =>
        cases read
        exact .text other span content
    · cases read
  · intro gives
    cases gives with
    | text => rfl
    | name => exact (other rfl).elim
    | unit => exact (other rfl).elim

/-- What is taken for a unit is just what may follow the name of a format. -/
theorem decodeUnit_eq_ok_iff : decodeUnit span item = .ok () ↔ IsUnit item := by
  constructor
  · intro read
    unfold decodeUnit at read
    split at read
    · exact .table _
    · cases read
    · exact .array _
    · cases read
    · cases read
    · cases read
  · intro nothing
    cases nothing <;> rfl

/-- The names of the formats, spelled exactly, are read as formats, and no other names. -/
theorem decodeName_eq_ok_iff : decodeName span name = .ok format ↔ name = format.name := by
  rw [← ReportFormat.ofName?_eq_some_iff, decodeName]
  cases ReportFormat.ofName? name <;> simp

/-- A format is read from its name, and from a table with its name and a unit. -/
theorem decodeFormat_eq_ok_iff :
    decodeFormat key item = .ok format ↔ Gives IsUnit .format item format.name := by
  constructor
  · intro read
    unfold decodeFormat at read
    split at read
    · next span text =>
        rw [decodeName_eq_ok_iff.mp read]
        exact .name span format
    · cases read
    · next form inner value =>
        obtain ⟨known, named, read⟩ := Volume.exists_of_bind_eq_ok read
        obtain ⟨_, nothing, read⟩ := Volume.exists_of_bind_eq_ok read
        cases read
        exact .unit form format (decodeName_eq_ok_iff.mp named) (decodeUnit_eq_ok_iff.mp nothing)
    · cases read
    · cases read
  · intro gives
    generalize same : format.name = content at gives
    cases gives with
    | text other => exact (other rfl).elim
    | name span other =>
        obtain rfl := ReportFormat.name_injective same
        exact decodeName_eq_ok_iff.mpr rfl
    | unit form other named nothing =>
        obtain rfl := ReportFormat.name_injective same
        simp only [decodeFormat, decodeName_eq_ok_iff.mpr named, decodeUnit_eq_ok_iff.mpr nothing,
          bind, Except.bind]

/-- Only formats are given for the format. -/
theorem Gives.exists_format (gives : Gives IsUnit .format item content) :
    ∃ format : ReportFormat, content = format.name := by
  cases gives with
  | text other => exact (other rfl).elim
  | name span format => exact ⟨format, rfl⟩
  | unit form format => exact ⟨format, rfl⟩

/-- An item gives at most one content for a setting. -/
theorem Gives.unique {other : Text} (key : Toml.Key) (gives : Gives IsUnit field item content)
    (givesToo : Gives IsUnit field item other) : content = other := by
  by_cases isFormat : field = .format
  · subst isFormat
    obtain ⟨format, rfl⟩ := gives.exists_format
    obtain ⟨formatToo, rfl⟩ := givesToo.exists_format
    have read : decodeFormat key item = .ok format := decodeFormat_eq_ok_iff.mpr gives
    rw [Except.ok.inj (read.symm.trans (decodeFormat_eq_ok_iff.mpr givesToo))]
  · have read : decodeText key item = .ok content := (decodeText_eq_ok_iff isFormat).mpr gives
    exact Except.ok.inj (read.symm.trans ((decodeText_eq_ok_iff isFormat).mpr givesToo))

/-- A configuration with a text set for a key. -/
def setText (config : Config) : Field → Text → Config
  | .scopeFile, content => { config with scopeFile := some content }
  | .extension, content => { config with extension := some content }
  | .language, content => { config with language := some content }
  | .format, content => { config with format := ReportFormat.ofName? content }

/-- Setting a text for a key leaves the other keys alone. -/
theorem value?_setText (gives : Gives IsUnit field item content) (other : Field) :
    (config.setText field content).value? other =
      if other = field then some content else config.value? other := by
  cases field with
  | format =>
      obtain ⟨format, rfl⟩ := gives.exists_format
      cases other with
      | format => exact congrArg (Option.map ReportFormat.name) (ReportFormat.ofName?_name format)
      | _ => rfl
  | _ => cases other <;> rfl

theorem map_eq_ok_iff {ε α β : Type} {result : Except ε α} {change : α → β} {b : β} :
    result.map change = .ok b ↔ ∃ a, result = .ok a ∧ b = change a := by
  cases result <;> simp [Except.map, eq_comm]

/-- An entry for a setting other than the format puts its string there. -/
theorem decodeEntry_text (known : Field.ofName? key.name = some field) (other : field ≠ .format) :
    decodeEntry config key item = (decodeText key item).map (config.setText field) := by
  rw [decodeEntry, known]
  cases field with
  | format => exact (other rfl).elim
  | _ => rfl

/-- An entry for the format puts the name of its format there. -/
theorem decodeEntry_format (known : Field.ofName? key.name = some .format) :
    decodeEntry config key item =
      (decodeFormat key item).map fun format => config.setText .format format.name := by
  rw [decodeEntry, known]
  simp only [setText, ReportFormat.ofName?_name]

/-- An entry with a known name is read exactly if its item gives a text under it. -/
theorem decodeEntry_of_known (known : Field.ofName? key.name = some field) :
    decodeEntry config key item = .ok next ↔
      ∃ content, Gives IsUnit field item content ∧ next = config.setText field content := by
  by_cases isFormat : field = .format
  · subst isFormat
    rw [decodeEntry_format known, map_eq_ok_iff]
    constructor
    · rintro ⟨format, read, same⟩
      exact ⟨format.name, decodeFormat_eq_ok_iff.mp read, same⟩
    · rintro ⟨content, gives, same⟩
      obtain ⟨format, rfl⟩ := gives.exists_format
      exact ⟨format, decodeFormat_eq_ok_iff.mpr gives, same⟩
  · rw [decodeEntry_text known isFormat, map_eq_ok_iff]
    simp only [decodeText_eq_ok_iff isFormat]

/-- An entry is read exactly if its name is known and its item gives a text under it, and then it
sets this text. -/
theorem decodeEntry_eq_ok_iff :
    decodeEntry config key item = .ok next ↔
      ∃ field content, key.name = field.name ∧ Gives IsUnit field item content ∧
        next = config.setText field content := by
  cases known : Field.ofName? key.name with
  | none =>
      have unknown := Field.ofName?_eq_none_iff.mp known
      rw [decodeEntry, known]
      constructor
      · intro read
        cases read
      · rintro ⟨field, content, named, -⟩
        exact (unknown field named).elim
  | some field =>
      have named := Field.eq_of_ofName? known
      rw [decodeEntry_of_known known]
      constructor
      · rintro ⟨content, gives, same⟩
        exact ⟨field, content, named, gives, same⟩
      · rintro ⟨other, content, namedToo, gives, same⟩
        obtain rfl := Field.name_injective (named.symm.trans namedToo)
        exact ⟨content, gives, same⟩

end Entry

/-! ### All entries -/

section Entries

variable {start config : Config} {entries : Toml.Entries}

/-- Acceptable entries can be read, whatever the configuration before them. -/
theorem exists_decodeEntries (acceptable : Acceptable IsUnit entries) (start : Config) :
    ∃ config, decodeEntries start entries = .ok config := by
  induction entries generalizing start with
  | nil => exact ⟨start, rfl⟩
  | cons entry entries ih =>
      obtain ⟨field, content, named, gives⟩ := acceptable entry List.mem_cons_self
      have first : decodeEntry start entry.1 entry.2 = .ok (start.setText field content) :=
        decodeEntry_eq_ok_iff.mpr ⟨field, content, named, gives, rfl⟩
      obtain ⟨config, later⟩ := ih
        (fun other member => acceptable other (List.mem_cons_of_mem _ member))
        (start.setText field content)
      refine ⟨config, ?_⟩
      rw [decodeEntries, first]
      exact later

/-- Entries that can be read are acceptable. -/
theorem acceptable_of_decodeEntries (read : decodeEntries start entries = .ok config) :
    Acceptable IsUnit entries := by
  induction entries generalizing start with
  | nil => exact fun entry member => nomatch member
  | cons entry entries ih =>
      obtain ⟨next, first, later⟩ := Volume.exists_of_bind_eq_ok read
      obtain ⟨field, content, named, gives, -⟩ := decodeEntry_eq_ok_iff.mp first
      intro other member
      rcases List.mem_cons.mp member with rfl | member
      · exact ⟨field, content, named, gives⟩
      · exact ih later other member

/-- A setting with a content is among the names of the entries. -/
theorem GivenBy.mem_names {field : Field} {content : Text} (given : GivenBy entries field content) :
    field.name ∈ entries.names := by
  obtain ⟨entry, member, named, -⟩ := given
  exact named ▸ List.mem_map_of_mem member

theorem givenBy_cons {entry : Toml.Key × Toml.Item} {field : Field} {content : Text} :
    GivenBy (entry :: entries) field content ↔
      entry.1.name = field.name ∧ Gives IsUnit field entry.2 content ∨
        GivenBy entries field content :=
  List.exists_mem_cons_iff _ _ _

/-- After entries with different names each key has the text that they give under it, or else the
text it had before. -/
theorem value?_of_decodeEntries (distinct : entries.names.Nodup)
    (read : decodeEntries start entries = .ok config) (field : Field) (content : Text) :
    config.value? field = some content ↔
      GivenBy entries field content ∨
        field.name ∉ entries.names ∧ start.value? field = some content := by
  induction entries generalizing start with
  | nil =>
      cases read
      simp [GivenBy, Toml.Entries.names]
  | cons entry entries ih =>
      obtain ⟨next, first, later⟩ := Volume.exists_of_bind_eq_ok read
      obtain ⟨other, otherContent, named, gives, rfl⟩ := decodeEntry_eq_ok_iff.mp first
      obtain ⟨absent, distinctLater⟩ := List.nodup_cons.mp distinct
      have names : field.name ∉ Toml.Entries.names (entry :: entries) ↔
          field.name ≠ entry.1.name ∧ field.name ∉ Toml.Entries.names entries := by
        rw [Toml.Entries.names, List.map_cons, List.mem_cons, not_or]
        rfl
      rw [ih distinctLater later, value?_setText gives, givenBy_cons, names]
      by_cases same : field = other
      · -- no later entry has the name of the first one, so the text of the first one stays
        subst same
        have notLater : field.name ∉ Toml.Entries.names entries := named ▸ absent
        have noneLater : ¬ GivenBy entries field content := fun given => notLater given.mem_names
        rw [if_pos rfl]
        constructor
        · rintro (given | ⟨-, set⟩)
          · exact (noneLater given).elim
          · cases set
            exact .inl (.inl ⟨named, gives⟩)
        · rintro ((⟨-, givesToo⟩ | given) | ⟨⟨different, -⟩, -⟩)
          · exact .inr ⟨notLater, congrArg some (gives.unique entry.1 givesToo)⟩
          · exact (noneLater given).elim
          · exact (different named.symm).elim
      · have different : field.name ≠ entry.1.name := fun sameName =>
          same (Field.name_injective (sameName.trans named))
        rw [if_neg same]
        simp only [different.symm, different, ne_eq, not_false_eq_true, true_and, false_and,
          false_or]

end Entries

/-! ### Documents -/

section Document

variable {volume : Volume} {path document : Text} {entries : Toml.Entries}

/-- A document that parses loads exactly if its entries decode, with the same configuration. -/
theorem load_eq_ok_iff {config : Config} (read : volume.readText path = .ok document)
    (parsed : Toml.parse? document = some entries) :
    load volume path = .ok config ↔ decode entries = .ok config := by
  simp only [load, read, ofText, parsed]
  cases decode entries <;> simp [Except.mapError]

/-- Entries that are not acceptable are reported as an issue of the file. -/
theorem exists_issue_of_not_acceptable (read : volume.readText path = .ok document)
    (parsed : Toml.parse? document = some entries) (refused : ¬ Acceptable IsUnit entries) :
    ∃ issue, load volume path = .error (.config path document issue) := by
  cases decoded : decode entries with
  | ok config => exact (refused (acceptable_of_decodeEntries decoded)).elim
  | error issue =>
      refine ⟨issue, ?_⟩
      simp only [load, read, ofText, parsed, decoded, Except.mapError]

/-- A decoded configuration has the contents that the entries give. -/
theorem value?_of_decode (parsed : Toml.parse? document = some entries) {config : Config}
    (decoded : decode entries = .ok config) (field : Field) (content : Text) :
    config.value? field = some content ↔ GivenBy entries field content := by
  obtain ⟨-, -, -, distinct⟩ := Toml.names_of_parse? parsed
  rw [value?_of_decodeEntries distinct decoded, value?_empty]
  simp

/-- A decoded configuration lacks the settings that the entries do not name. -/
theorem value?_eq_none_iff (parsed : Toml.parse? document = some entries) {config : Config}
    (decoded : decode entries = .ok config) (field : Field) :
    config.value? field = none ↔ field.name ∉ entries.names := by
  rw [Option.eq_none_iff_forall_ne_some]
  constructor
  · intro unset present
    obtain ⟨entry, member, named⟩ := List.mem_map.mp present
    obtain ⟨other, content, namedToo, gives⟩ := acceptable_of_decodeEntries decoded entry member
    obtain rfl := Field.name_injective (named.symm.trans namedToo)
    exact unset content ((value?_of_decode parsed decoded _ content).mpr
      ⟨entry, member, namedToo, gives⟩)
  · intro absent content set
    exact absent ((value?_of_decode parsed decoded field content).mp set).mem_names

/-- **Main result**: a document is loaded exactly if every entry of its top table has a known name
and gives a text under it. Then each key has the text that the document gives to it, and none if
its name is not there. Otherwise there is a fault with the path of the file. -/
theorem load_of_document (read : volume.readText path = .ok document)
    (parsed : Toml.parse? document = some entries) :
    ((∃ config, load volume path = .ok config) ↔ Acceptable IsUnit entries) ∧
      (∀ config, load volume path = .ok config → ∀ field,
        (∀ content, config.value? field = some content ↔ GivenBy entries field content) ∧
          (config.value? field = none ↔ field.name ∉ entries.names)) ∧
      (¬ Acceptable IsUnit entries →
        ∃ issue, load volume path = .error (.config path document issue)) := by
  refine ⟨⟨?_, ?_⟩, ?_, exists_issue_of_not_acceptable read parsed⟩
  · rintro ⟨config, loaded⟩
    exact acceptable_of_decodeEntries ((load_eq_ok_iff read parsed).mp loaded)
  · intro acceptable
    obtain ⟨config, decoded⟩ := exists_decodeEntries acceptable .empty
    exact ⟨config, (load_eq_ok_iff read parsed).mpr decoded⟩
  · intro config loaded field
    have decoded := (load_eq_ok_iff read parsed).mp loaded
    exact ⟨value?_of_decode parsed decoded field, value?_eq_none_iff parsed decoded field⟩

end Document

/-- A document that names its format by the header of an empty table. -/
def headerDocument : Text :=
  "extension = '.y'\n[format.json]\n".toList

def headerEntries : Toml.Entries :=
  [(⟨"extension".toList, ⟨31, 22⟩⟩, .scalar ⟨19, 15⟩ (.text ".y".toList)),
    (⟨"format".toList, ⟨13, 7⟩⟩,
      .table .implied [(⟨"json".toList, ⟨6, 2⟩⟩, .table (.header ⟨14, 1⟩) [])])]

/-- A document of which only the second entry does not fit. -/
def numberDocument : Text :=
  "language = 'yul'\nformat = 1\n".toList

def numberEntries : Toml.Entries :=
  [(⟨"language".toList, ⟨28, 20⟩⟩, .scalar ⟨17, 12⟩ (.text "yul".toList)),
    (⟨"format".toList, ⟨11, 5⟩⟩, .scalar ⟨2, 1⟩ (.integer 1))]

/-- A volume with both documents. -/
def documentVolume : Volume where
  root := .directory
    [(['a'], .file (Utf8.encode headerDocument)), (['b'], .file (Utf8.encode numberDocument))]
  current := []

/-- A format may be given by a header with nothing under it. -/
theorem acceptable_headerEntries : Acceptable IsUnit headerEntries := by
  intro entry member
  rcases List.mem_pair.mp member with rfl | rfl
  · exact ⟨.extension, _, rfl, .text (by decide) _ _⟩
  · exact ⟨.format, _, rfl, .unit _ .json rfl (.table _)⟩

/-- A number is no extension. -/
theorem not_acceptable_numberEntries : ¬ Acceptable IsUnit numberEntries := by
  intro acceptable
  obtain ⟨field, content, -, gives⟩ := acceptable _ (List.mem_cons_of_mem _ List.mem_cons_self)
  cases gives

/-- The document with the header loads, the one with the number does not. -/
theorem load_of_documentVolume :
    (∃ config, load documentVolume ['a'] = .ok config ∧
      config.value? .extension = some ".y".toList ∧ config.value? .format = some "json".toList ∧
      config.value? .language = none) ∧
    ∃ issue, load documentVolume ['b'] = .error (.config ['b'] numberDocument issue) := by
  have read : documentVolume.readText ['a'] = .ok headerDocument := rfl
  have readToo : documentVolume.readText ['b'] = .ok numberDocument := rfl
  have parsed : Toml.parse? headerDocument = some headerEntries := rfl
  have parsedToo : Toml.parse? numberDocument = some numberEntries := rfl
  obtain ⟨loads, values, -⟩ := load_of_document read parsed
  obtain ⟨-, -, fails⟩ := load_of_document readToo parsedToo
  refine ⟨?_, fails not_acceptable_numberEntries⟩
  obtain ⟨config, loaded⟩ := loads.mpr acceptable_headerEntries
  have given := values config loaded
  refine ⟨config, loaded, ?_, ?_, ?_⟩
  · exact ((given .extension).1 _).mpr
      ⟨_, List.mem_cons_self, rfl, .text (by decide) _ _⟩
  · exact ((given .format).1 _).mpr
      ⟨_, List.mem_cons_of_mem _ List.mem_cons_self, rfl, .unit _ .json rfl (.table _)⟩
  · exact (given .language).2.mpr (by decide)

/-- A document with an empty array under the name of a format. -/
def arrayDocument : Text :=
  "format = { json = [] }\n".toList

def arrayEntries : Toml.Entries :=
  [(⟨"format".toList, ⟨23, 17⟩⟩,
    .table (.inline ⟨14, 1⟩) [(⟨"json".toList, ⟨12, 8⟩⟩, .array ⟨5, 3⟩ [])])]

def arrayVolume : Volume where
  root := .directory [(['c'], .file (Utf8.encode arrayDocument))]
  current := []

/-- An empty array is not an empty table. -/
theorem not_acceptable_arrayEntries : ¬ Acceptable IsEmptyTable arrayEntries := by
  intro acceptable
  obtain ⟨field, content, -, gives⟩ := acceptable _ List.mem_cons_self
  cases gives with
  | unit _ _ _ nothing => cases nothing

/-- A document is also loaded if an empty array stands where an empty table is meant to stand. -/
theorem load_accepts_emptyArray :
    arrayVolume.readText ['c'] = .ok arrayDocument ∧
      Toml.parse? arrayDocument = some arrayEntries ∧
      load arrayVolume ['c'] = .ok { Config.empty with format := some .json } ∧
      ¬ ((∃ config, load arrayVolume ['c'] = .ok config) ↔
        Acceptable IsEmptyTable arrayEntries) := by
  have loaded : load arrayVolume ['c'] = .ok { Config.empty with format := some .json } := rfl
  refine ⟨rfl, rfl, loaded, fun same => ?_⟩
  exact not_acceptable_arrayEntries (same.mp ⟨_, loaded⟩)

end Config

end AssemblyDigest
