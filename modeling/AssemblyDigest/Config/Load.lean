import AssemblyDigest.Config.Decode
import AssemblyDigest.Fault
import AssemblyDigest.Volume.Content

/-! # Loading a configuration file

A configuration file must be UTF-8 text, that text a TOML document, and that document a
configuration.
-/

namespace AssemblyDigest

namespace Config

/-- The configuration in the text of a file. -/
def ofText (path document : Text) : Except Fault Config :=
  match Toml.parse? document with
  | none => .error (.configSyntax path)
  | some entries => (decode entries).mapError (.config path document)

/-- The configuration in a file. -/
def load (volume : Volume) (path : Text) : Except Fault Config :=
  match volume.readText path with
  | .error cause => .error (.access path cause)
  | .ok document => ofText path document

end Config

end AssemblyDigest
