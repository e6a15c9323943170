import AssemblyDigest.Json
import AssemblyDigest.Options

/-! # Reports

A report lists files with the snippets found in them, in the order in which the files were added.
Files without snippets are left out. The options decide on the format in which a report is rendered
and on the language of its code.
-/

namespace AssemblyDigest

/-- A file of a report. -/
structure ReportEntry where
  /-- The name the file is listed under. -/
  fileName : Text
  path : Text
  snippets : List Text
  deriving DecidableEq, Repr

/-- Files with the snippets found in them. -/
structure Report where
  entries : List ReportEntry
  deriving DecidableEq, Repr

/-- The entry of a path. -/
def ReportEntry.of (path : Text) (snippets : List Text) : ReportEntry where
  fileName := Path.fileName path
  path := path
  snippets := snippets

namespace Report

/-- The report without files. -/
def empty : Report where
  entries := []

/-- The report after one more file. -/
def push (report : Report) (path : Text) (snippets : List Text) : Report :=
  if snippets.isEmpty then report
  else { report with entries := report.entries ++ [ReportEntry.of path snippets] }

/-- Whether a report lists no file. -/
def isEmpty (report : Report) : Bool :=
  report.entries.isEmpty

/-- The number of snippets in a report. -/
def snippetCount (report : Report) : Nat :=
  report.entries.foldr (fun entry count => entry.snippets.length + count) 0

end Report

/-! ## JSON

A report is a list of records with the name, the path and the snippets of each file.
-/

/-- A file as a JSON value. -/
def ReportEntry.toJsonValue (entry : ReportEntry) : Json :=
  .record
    [("file".toList, .text entry.fileName),
     ("path".toList, .text entry.path),
     ("snippets".toList, .list (entry.snippets.map .text))]

/-- A report as a JSON value. -/
def Report.toJsonValue (report : Report) : Json :=
  .list (report.entries.map ReportEntry.toJsonValue)

/-- A report in JSON. -/
def Report.toJson (report : Report) : Text :=
  report.toJsonValue.pretty 0

/-! ## Markdown

Every file is a heading of the second level with its name, followed by one fenced code block for
each snippet. A blank line follows the heading and every fence that closes.
-/

/-- The mark of a fence. -/
def fence : Text := "```".toList

/-- A snippet in a fenced block of a language. -/
def fencedBlock (language snippet : Text) : Text :=
  fence ++ language ++ '\n' :: snippet ++ '\n' :: fence ++ ['\n', '\n']

/-- A file in Markdown. -/
def ReportEntry.toMarkdown (language : Text) (entry : ReportEntry) : Text :=
  '#' :: '#' :: ' ' :: entry.fileName ++ '\n' :: '\n' ::
    entry.snippets.flatMap (fencedBlock language)

/-- A report in Markdown. -/
def Report.toMarkdown (report : Report) (language : Text) : Text :=
  report.entries.flatMap (ReportEntry.toMarkdown language)

/-- The text of a report in the format of the options. -/
def Report.render (report : Report) (options : Options) : Text :=
  match options.format with
  | .markdown => report.toMarkdown options.language
  | .json => report.toJson

end AssemblyDigest
