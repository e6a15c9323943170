import AssemblyDigest.Config.Issue
import AssemblyDigest.Options
import AssemblyDigest.Toml.Document

/-! # Configurations from TOML

A configuration is a document whose top table has no other names than `scope_file`,
`extension`, `language` and `format`. The first three stand for strings. A format is its
name, or a table with that name as its only key and an empty table or array under it.
Entries are read in document order, and the first that does not fit is reported.
-/

namespace AssemblyDigest

namespace Config

/-- The keys of a configuration. -/
inductive Field where
  | scopeFile
  | extension
  | language
  | format
  deriving DecidableEq, Repr

/-- The name of a key. -/
def Field.name : Field → Text
  | .scopeFile => "scope_file".toList
  | .extension => "extension".toList
  | .language => "language".toList
  | .format => "format".toList

/-- The key of a name. -/
def Field.ofName? (name : Text) : Option Field :=
  [Field.scopeFile, .extension, .language, .format].find? (·.name = name)

/-- An item described by its value, where a string is needed. -/
def describe : Toml.Item → Text
  | .scalar _ (.text _) => "string".toList
  | .scalar _ (.integer value) => "integer ".toList ++ quoted (Text.ofInt value)
  | .scalar _ (.float value) => "floating point ".toList ++ quoted value.text
  | .scalar _ (.boolean value) =>
      "boolean ".toList ++ quoted (if value then "true" else "false").toList
  | .scalar _ (.datetime _) => "map".toList
  | .array _ _ => "sequence".toList
  | .table _ _ => "map".toList
  | .tables _ _ _ => "sequence".toList

/-- A value described by its kind, where a table is needed. -/
def kind : Toml.Scalar → Text
  | .text _ => "string".toList
  | .integer _ => "integer".toList
  | .float _ => "float".toList
  | .boolean _ => "boolean".toList
  | .datetime _ => "datetime".toList

/-- The span of an item, or else of its key. -/
def spanOf (key : Toml.Key) (item : Toml.Item) : Toml.Span :=
  item.span?.getD key.span

/-- The string under a key. -/
def decodeText (key : Toml.Key) (item : Toml.Item) : Except Issue Text :=
  match item with
  | .scalar _ (.text content) => .ok content
  | item => .error ⟨spanOf key item, .notString (describe item)⟩

/-- The format of a name that stands at a span. -/
def decodeName (span : Toml.Span) (name : Text) : Except Issue ReportFormat :=
  match ReportFormat.ofName? name with
  | some format => .ok format
  | none => .error ⟨span, .unknownFormat name⟩

/-- Accepts what stands under the name of a format: a table or an array without entries. An
issue with a table that was not written as such is reported at the given span. -/
def decodeUnit (fallback : Toml.Span) (item : Toml.Item) : Except Issue Unit :=
  match item with
  | .table _ [] => .ok ()
  | .table form _ => .error ⟨form.span?.getD fallback, .notEmptyTable⟩
  | .array _ [] => .ok ()
  | .array span _ => .error ⟨span, .notEmptyTable⟩
  | .tables span _ _ => .error ⟨span, .notEmptyArray⟩
  | .scalar span value => .error ⟨span, .notTable (kind value)⟩

/-- The format under a key. -/
def decodeFormat (key : Toml.Key) (item : Toml.Item) : Except Issue ReportFormat :=
  match item with
  | .scalar span (.text content) => decodeName span content
  | .table _ [] => .error ⟨spanOf key item, .noFormat⟩
  | .table _ [(inner, value)] => do
      let format ← decodeName inner.span inner.name
      decodeUnit (spanOf key item) value
      .ok format
  | .table _ _ => .error ⟨spanOf key item, .severalFormats⟩
  | item => .error ⟨spanOf key item, .wantedStringOrTable⟩

/-- A configuration after one more entry. -/
def decodeEntry (config : Config) (key : Toml.Key) (item : Toml.Item) : Except Issue Config :=
  match Field.ofName? key.name with
  | none => .error ⟨key.span, .unknownField key.name⟩
  | some .scopeFile =>
      (decodeText key item).map fun value => { config with scopeFile := some value }
  | some .extension =>
      (decodeText key item).map fun value => { config with extension := some value }
  | some .language => (decodeText key item).map fun value => { config with language := some value }
  | some .format => (decodeFormat key item).map fun value => { config with format := some value }

/-- A configuration after entries. -/
def decodeEntries : Config → Toml.Entries → Except Issue Config
  | config, [] => .ok config
  | config, (key, item) :: rest => do decodeEntries (← decodeEntry config key item) rest

/-- The configuration in a document. -/
def decode (entries : Toml.Entries) : Except Issue Config :=
  decodeEntries .empty entries

end Config

end AssemblyDigest
