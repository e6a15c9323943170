import AssemblyDigest.Path

/-! # Options of a scan

A scan looks for a declaration of its scope under a file name, takes the files with a
certain extension, and writes a report in a format. A configuration holds values for some
of these options.
-/

namespace AssemblyDigest

/-- The formats of a report. -/
inductive ReportFormat where
  | markdown
  | json
  deriving DecidableEq, Repr

namespace ReportFormat

/-- The name of a format in configurations and arguments. -/
def name : ReportFormat → Text
  | .markdown => ['m', 'a', 'r', 'k', 'd', 'o', 'w', 'n']
  | .json => ['j', 's', 'o', 'n']

/-- The format of a name. -/
def ofName? (name : Text) : Option ReportFormat :=
  if name = ReportFormat.markdown.name then some .markdown
  else if name = ReportFormat.json.name then some .json
  else none

/-- The extension of report files in a format. -/
def fileExtension : ReportFormat → Text
  | .markdown => ['m', 'd']
  | .json => ['j', 's', 'o', 'n']

end ReportFormat

/-- The options of a scan. -/
structure Options where
  /-- The file name of scope declarations. -/
  scopeFile : Text
  /-- What the paths of source files end with. -/
  extension : Text
  /-- The language that code in a Markdown report is marked with. -/
  language : Text
  format : ReportFormat
  deriving DecidableEq, Repr

/-- Values for some of the options. -/
structure Config where
  scopeFile : Option Text
  extension : Option Text
  language : Option Text
  format : Option ReportFormat
  deriving DecidableEq, Repr

/-- The configuration that sets no option. -/
def Config.empty : Config where
  scopeFile := none
  extension := none
  language := none
  format := none

namespace Options

/-- The options of a scan without configuration and arguments. -/
def standard : Options where
  scopeFile := ['.', 's', 'c', 'o', 'p', 'e']
  extension := ['.', 's', 'o', 'l']
  language := ['s', 'o', 'l', 'i', 'd', 'i', 't', 'y']
  format := .markdown

/-- The options with the values of a configuration in place. -/
def apply (options : Options) (config : Config) : Options where
  scopeFile := config.scopeFile.getD options.scopeFile
  extension := config.extension.getD options.extension
  language := config.language.getD options.language
  format := config.format.getD options.format

/-- The file name of a report without its extension. -/
def reportStem : Text := "assembly_snippets".toList

/-- The file name of a report. -/
def reportName (options : Options) : Text :=
  reportStem ++ '.' :: options.format.fileExtension

/-- The path of the report of a workspace when no other is asked for. -/
def defaultOutputPath (options : Options) (root : Text) : Text :=
  Path.join root options.reportName

end Options

end AssemblyDigest
