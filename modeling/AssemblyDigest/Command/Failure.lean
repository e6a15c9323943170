import AssemblyDigest.Fault

/-! # Failures of a run

A failure names what the program was about to do and lists the causes, the nearest first.
Several causes are numbered from zero.
-/

namespace AssemblyDigest

namespace Command

/-- Why a run failed. -/
structure Failure where
  context : Text
  causes : List Text
  deriving DecidableEq, Repr

namespace Failure

/-- A failure behind which a fault of the library lies. A file fault counts as a cause of
its own besides the reason it gives. -/
def ofFault (context : Text) (fault : Fault) : Failure where
  context := context
  causes := fault.message :: fault.causes

/-- A failure of access. -/
def ofAccess (context : Text) (cause : AccessFault) : Failure where
  context := context
  causes := [cause.message]

/-- A cause with its further lines indented. -/
def indented (width : Nat) (cause : Text) : Text :=
  cause.flatMap fun char => if char = '\n' then '\n' :: List.replicate width ' ' else [char]

/-- A number of a cause, right aligned in five columns. -/
def numberColumn (number : Nat) : Text :=
  List.replicate (5 - (Text.ofNat number).length) ' ' ++ Text.ofNat number ++ [':', ' ']

/-- Causes with numbers, one after the other. -/
def numbered : Nat → List Text → Text
  | _, [] => []
  | number, cause :: rest =>
      numberColumn number ++ indented 7 cause ++ '\n' :: numbered (number + 1) rest

/-- The list of causes. -/
def causeList : List Text → Text
  | [cause] => List.replicate 4 ' ' ++ indented 4 cause ++ ['\n']
  | causes => numbered 0 causes

/-- The wording of a failure. -/
def message (failure : Failure) : Text :=
  "Error: ".toList ++ failure.context ++ "\n\nCaused by:\n".toList ++ causeList failure.causes

end Failure

end Command

end AssemblyDigest
