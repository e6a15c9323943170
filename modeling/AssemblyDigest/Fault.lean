import AssemblyDigest.Config.Issue
import AssemblyDigest.Volume.Fault

/-! # Faults of a scan

What can keep a scan from its result, with the wording shown to the user.
-/

namespace AssemblyDigest

/-- The reasons for which a scan or the loading of a configuration fails. -/
inductive Fault where
  /-- A file could not be read or written. -/
  | access (path : Text) (cause : AccessFault)
  /-- The walk of a workspace could not open its root or a directory below it. -/
  | walk (path : Text) (cause : AccessFault)
  /-- A configuration file is not TOML. -/
  | configSyntax (path : Text)
  /-- A configuration file is TOML but no configuration. -/
  | config (path document : Text) (issue : Config.Issue)
  deriving DecidableEq, Repr

namespace Fault

/-- The wordings of what lies behind a fault, the nearest first. -/
def causes : Fault → List Text
  | .access _ cause => [cause.message]
  | .walk path cause =>
      ["IO error for operation on ".toList ++ path ++ ": ".toList ++ cause.message, cause.message]
  | .configSyntax _ => ["TOML parse error: the document is not valid TOML\n".toList]
  | .config _ document issue => [issue.message document]

/-- The wording of a fault apart from what lies behind it. -/
def heading : Fault → Text
  | .access path _ => "I/O error on ".toList ++ path
  | .walk _ _ => "directory walk failed".toList
  | .configSyntax path => "invalid config file ".toList ++ path
  | .config path _ _ => "invalid config file ".toList ++ path

/-- The wording of a fault: its heading and its nearest cause. -/
def message (fault : Fault) : Text :=
  fault.heading ++ ": ".toList ++ (fault.causes.head?.getD [])

end Fault

end AssemblyDigest
