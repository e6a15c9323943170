import AssemblyDigest.Options

/-! # Command line arguments

The program has one command, `scan`, besides the requests for help and for its version.
An option of `scan` is given at most once, as `--name value` or `--name=value`. A separate
value must not look like an option. A request for help ends the reading, so that faults
after it do not count while faults before it do.
-/

namespace AssemblyDigest

namespace Command

/-- What a `scan` command asks for. -/
structure Request where
  /-- The root of the workspace. -/
  root : Option Text
  /-- The path of the report. -/
  output : Option Text
  /-- Whether the report is printed. -/
  toStdout : Bool
  /-- The path of a configuration file. -/
  config : Option Text
  /-- Options that take precedence over the configuration file. -/
  overrides : Config
  deriving DecidableEq, Repr

/-- The request of a `scan` command without options. -/
def Request.empty : Request where
  root := none
  output := none
  toStdout := false
  config := none
  overrides := .empty

/-- What the arguments ask for. -/
inductive Invocation where
  | help
  | helpOfScan
  | helpOfHelp
  | version
  | scan (request : Request)
  deriving DecidableEq, Repr

/-- The options of `scan` that take a value. -/
inductive Setting where
  | root
  | output
  | config
  | format
  | scopeFile
  | extension
  | language
  deriving DecidableEq, Repr

/-- The name of an option, without the hyphens in front. -/
def Setting.name : Setting → Text
  | .root => "root".toList
  | .output => "output".toList
  | .config => "config".toList
  | .format => "format".toList
  | .scopeFile => "scope-file".toList
  | .extension => "extension".toList
  | .language => "language".toList

/-- The option of a name. -/
def Setting.ofName? (name : Text) : Option Setting :=
  [Setting.root, .output, .config, .format, .scopeFile, .extension, .language].find?
    (·.name = name)

/-- Fills a slot that is still free. -/
def fill {α : Type} (slot : Option α) (value : α) : Option (Option α) :=
  match slot with
  | none => some (some value)
  | some _ => none

/-- Fills a slot for a path, which must not be empty. -/
def fillPath (slot : Option Text) (path : Text) : Option (Option Text) :=
  if path.isEmpty then none else fill slot path

/-- A request after one more option, unless the option was given before or refuses the
value. -/
def Request.set (request : Request) (setting : Setting) (value : Text) : Option Request :=
  match setting with
  | .root => do some { request with root := ← fillPath request.root value }
  | .output => do some { request with output := ← fillPath request.output value }
  | .config => do some { request with config := ← fillPath request.config value }
  | .format => do
      let format ← fill request.overrides.format (← ReportFormat.ofName? value)
      some { request with overrides.format := format }
  | .scopeFile => do
      let name ← fill request.overrides.scopeFile value
      some { request with overrides.scopeFile := name }
  | .extension => do
      let extension ← fill request.overrides.extension value
      some { request with overrides.extension := extension }
  | .language => do
      let language ← fill request.overrides.language value
      some { request with overrides.language := language }

/-- A request that is to print the report, unless that was asked before. -/
def Request.print (request : Request) : Option Request :=
  if request.toStdout then none else some { request with toStdout := true }

/-- A complete request: a report is not printed and written to a path at once. -/
def Request.finish (request : Request) : Option Invocation :=
  if request.toStdout && request.output.isSome then none else some (.scan request)

/-- Whether a separate argument may be the value of an option. -/
def isValue : Text → Bool
  | ['-'] => true
  | '-' :: _ => false
  | _ => true

/-- What an argument of `scan` is. -/
inductive Argument where
  | help
  | print
  /-- An option whose value is the next argument. -/
  | opening (setting : Setting)
  /-- An option with its value. -/
  | complete (setting : Setting) (value : Text)
  /-- The mark after which no option follows. -/
  | endMark
  | unknown
  deriving DecidableEq, Repr

/-- The name of a long option and the text from the equals sign on. -/
def splitLong (long : Text) : Text × Text :=
  (long.takeWhile (· ≠ '='), long.dropWhile (· ≠ '='))

/-- What a long option of `scan` is, given without the hyphens in front. -/
def Argument.ofLong (long : Text) : Argument :=
  match splitLong long with
  | (name, []) =>
      if name.isEmpty then .endMark
      else if name = "help".toList then .help
      else if name = "stdout".toList then .print
      else
        match Setting.ofName? name with
        | some setting => .opening setting
        | none => .unknown
  | (name, _ :: value) =>
      match Setting.ofName? name with
      | some setting => .complete setting value
      | none => .unknown

/-- What an argument of `scan` is. -/
def Argument.of : Text → Argument
  | '-' :: '-' :: long => .ofLong long
  | '-' :: 'h' :: _ => .help
  | _ => .unknown

/-- Reads the arguments of `scan`. -/
def readScan : Request → List Text → Option Invocation
  | request, [] => request.finish
  | request, argument :: rest =>
      match Argument.of argument with
      | .help => some .helpOfScan
      | .print => do readScan (← request.print) rest
      | .complete setting value => do readScan (← request.set setting value) rest
      | .opening setting =>
          match rest with
          | [] => none
          | value :: rest =>
              if isValue value then do readScan (← request.set setting value) rest else none
      | .endMark => if rest.isEmpty then request.finish else none
      | .unknown => none

/-- Reads the arguments of `help`. -/
def readHelp (arguments : List Text) : Option Invocation :=
  match arguments with
  | [] => some .help
  | [name] =>
      if name = "scan".toList then some .helpOfScan
      else if name = "help".toList then some .helpOfHelp
      else none
  | _ => none

/-- Reads the arguments of the program. -/
def Invocation.ofArguments? : List Text → Option Invocation
  | [] => none
  | first :: rest =>
      if first = "scan".toList then readScan .empty rest
      else if first = "help".toList then readHelp rest
      else if first = "--help".toList then some .help
      else if first = "--version".toList then some .version
      else
        match first with
        | '-' :: 'h' :: _ => some .help
        | '-' :: 'V' :: _ => some .version
        | _ => none

end Command

end AssemblyDigest
