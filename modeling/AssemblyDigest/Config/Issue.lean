import AssemblyDigest.Decimal.Shortest
import AssemblyDigest.Toml.Item
import AssemblyDigest.Utf8

/-! # Issues with a configuration

A document may be valid TOML and still be no configuration. An issue says what is wrong
and points at the text it is about. Its wording quotes the line where that text starts and
underlines the text, one caret for each of its bytes.
-/

namespace AssemblyDigest

namespace Config

/-- What is wrong with an entry of a configuration. -/
inductive Complaint where
  | unknownField (name : Text)
  /-- A string is needed, and something described otherwise is given. -/
  | notString (found : Text)
  | unknownFormat (name : Text)
  /-- A format is neither a string nor a table. -/
  | wantedStringOrTable
  /-- A format is a table without a name in it. -/
  | noFormat
  /-- A format is a table with several names in it. -/
  | severalFormats
  /-- What stands under the name of a format is neither a table nor an array. -/
  | notTable (found : Text)
  /-- The table or array under the name of a format has entries. -/
  | notEmptyTable
  /-- Headers in doubled brackets open tables under the name of a format. -/
  | notEmptyArray
  deriving DecidableEq, Repr

/-- A name between backquotes. -/
def quoted (name : Text) : Text :=
  '\x60' :: name ++ ['\x60']

/-- The wording of a complaint. -/
def Complaint.message : Complaint → Text
  | .unknownField name =>
      "unknown field ".toList ++ quoted name ++ ", expected one of ".toList ++
        quoted "scope_file".toList ++ ", ".toList ++ quoted "extension".toList ++ ", ".toList ++
        quoted "language".toList ++ ", ".toList ++ quoted "format".toList
  | .notString found => "invalid type: ".toList ++ found ++ ", expected a string".toList
  | .unknownFormat name =>
      "unknown variant ".toList ++ quoted name ++ ", expected ".toList ++
        quoted "markdown".toList ++ " or ".toList ++ quoted "json".toList
  | .wantedStringOrTable => "wanted string or table".toList
  | .noFormat => "wanted exactly 1 element, found 0 elements".toList
  | .severalFormats => "wanted exactly 1 element, more than 1 element".toList
  | .notTable found => "expected table, found ".toList ++ found
  | .notEmptyTable => "expected empty table".toList
  | .notEmptyArray => "expected empty array".toList

/-- A complaint about a stretch of a document. -/
structure Issue where
  span : Toml.Span
  complaint : Complaint
  deriving DecidableEq, Repr

/-- The lines of a document, cut at line feeds alone. -/
def rawLines (document : Text) : List Text :=
  Text.splitOn '\n' document

/-- The wording of an issue with a document. -/
def Issue.message (issue : Issue) (document : Text) : Text :=
  let before := document.take (document.length - issue.span.start)
  let marked := (document.drop before.length).take (issue.span.start - issue.span.stop)
  let line := before.count '\n'
  let column := ((rawLines before).getLast?.getD []).length
  let content := ((rawLines document)[line]?).getD []
  let number := Text.ofNat (line + 1)
  let gutter := List.replicate (number.length + 1) ' '
  let carets := max 1 (min (Text.byteLength marked) (Text.byteLength content - column))
  "TOML parse error at line ".toList ++ number ++ ", column ".toList ++
    Text.ofNat (column + 1) ++ '\n' ::
    gutter ++ '|' :: '\n' ::
    number ++ " | ".toList ++ content ++ '\n' ::
    gutter ++ '|' :: List.replicate (column + 1) ' ' ++ List.replicate carets '^' ++ '\n' ::
    issue.complaint.message ++ ['\n']

end Config

end AssemblyDigest
