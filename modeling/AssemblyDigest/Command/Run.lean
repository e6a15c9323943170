import AssemblyDigest.Command.Arguments
import AssemblyDigest.Command.Failure
import AssemblyDigest.Command.Help
import AssemblyDigest.Config.Load
import AssemblyDigest.Scan
import AssemblyDigest.Text.Uppercase

/-! # Running the program

A run reads a volume, answers on the two output streams, and writes at most one file, the
report. A run that fails prints nothing to the standard output and writes nothing.
-/

namespace AssemblyDigest

namespace Command

/-- A file that a run writes. -/
structure Saved where
  path : Text
  bytes : Bytes
  deriving DecidableEq, Repr

/-- What a run leaves behind. -/
structure Response where
  exitCode : Nat
  stdout : Text
  stderr : Text
  /-- The file written, if any. -/
  saved : Option Saved
  /-- The volume after the run. -/
  volume : Volume

namespace Response

/-- The answer of a run that only prints. -/
def print (volume : Volume) (stdout : Text) : Response where
  exitCode := 0
  stdout := stdout
  stderr := []
  saved := none
  volume := volume

/-- The answer of a run whose arguments cannot be read. -/
def misuse (volume : Volume) : Response where
  exitCode := 2
  stdout := []
  stderr := misuseText
  saved := none
  volume := volume

/-- The answer of a run that failed. -/
def fail (volume : Volume) (failure : Failure) : Response where
  exitCode := 1
  stdout := []
  stderr := failure.message
  saved := none
  volume := volume

/-- The answer of a run that wrote a file. -/
def save (volume : Volume) (path : Text) (bytes : Bytes) : Response where
  exitCode := 0
  stdout := "Assembly snippets saved to ".toList ++ path ++ ['\n']
  stderr := []
  saved := some ⟨path, bytes⟩
  volume := volume

end Response

/-- The line for a workspace without source files. -/
def noFilesLine (options : Options) : Text :=
  "No ".toList ++ Text.capitalise options.language ++ " files found.\n".toList

/-- The workspace of a request. -/
def Request.rootPath (request : Request) : Text :=
  request.root.getD ['.']

/-- The canonical root of a request. -/
def canonicalRoot (volume : Volume) (request : Request) : Except Failure Text :=
  (volume.canonicalPath request.rootPath).mapError
    (.ofAccess ("resolve workspace root ".toList ++ request.rootPath))

/-- The configuration that a request names; without one, no option is set. -/
def requestedConfig (volume : Volume) (request : Request) : Except Failure Config :=
  match request.config with
  | none => .ok .empty
  | some path => (Config.load volume path).mapError (.ofFault "load config file".toList)

/-- The options of a request: arguments come before the configuration, and that before the
standard. -/
def Request.options (request : Request) (config : Config) : Options :=
  (Options.standard.apply config).apply request.overrides

/-- What a request finds: the canonical root, the options and the outcome of the scan. -/
structure Finding where
  root : Text
  options : Options
  outcome : Outcome

/-- Resolves the root, then loads the configuration, then scans. -/
def Request.find (request : Request) (volume : Volume) : Except Failure Finding := do
  let root ← canonicalRoot volume request
  let config ← requestedConfig volume request
  let options := request.options config
  let outcome ←
    (Scan.workspace volume root options).mapError (.ofFault "scan workspace failed".toList)
  .ok ⟨root, options, outcome⟩

/-- The path of the report that a request writes. -/
def Request.outputPath (request : Request) (finding : Finding) : Text :=
  request.output.getD (finding.options.defaultOutputPath finding.root)

/-- Prints or writes a report. -/
def deliver (volume : Volume) (request : Request) (finding : Finding) (report : Report) :
    Response :=
  let text := report.render finding.options
  if request.toStdout then .print volume text
  else
    let path := request.outputPath finding
    let bytes := Utf8.encode text
    match volume.write path bytes with
    | .ok after => .save after path bytes
    | .error cause => .fail volume (.ofAccess ("create output file ".toList ++ path) cause)

/-- Runs a `scan` command. -/
def scan (volume : Volume) (request : Request) : Response :=
  match request.find volume with
  | .error failure => .fail volume failure
  | .ok finding =>
      match finding.outcome with
      | .noFiles _ => .print volume (noFilesLine finding.options)
      | .report report _ => deliver volume request finding report

/-- Runs the program. -/
def run (volume : Volume) (arguments : List Text) : Response :=
  match Invocation.ofArguments? arguments with
  | none => .misuse volume
  | some .help => .print volume helpText
  | some .helpOfScan => .print volume scanHelpText
  | some .helpOfHelp => .print volume helpHelpText
  | some .version => .print volume versionText
  | some (.scan request) => scan volume request

end Command

end AssemblyDigest
