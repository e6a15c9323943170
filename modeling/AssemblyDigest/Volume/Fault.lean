import AssemblyDigest.Text

/-! # Access faults

Why a path could not be followed, or a file not be read or written.
-/

namespace AssemblyDigest

/-- The reasons for which access to a file or directory fails. -/
inductive AccessFault where
  /-- Some element of the path does not exist. -/
  | notFound
  /-- Something other than a directory stands where one is needed. -/
  | notDirectory
  /-- A directory stands where a file is needed. -/
  | isDirectory
  /-- The path or one of its elements exceeds the limits of the system. -/
  | nameTooLong
  /-- More links were met than are followed. -/
  | tooManyLinks
  /-- The file may not be read. -/
  | permissionDenied
  /-- The device fails to deliver the file. -/
  | inputOutput
  /-- The path holds the character U+0000. -/
  | nulInPath
  /-- The content is not UTF-8 though text is asked for. -/
  | notUtf8
  /-- The receiver takes no more bytes. -/
  | outputFull
  deriving DecidableEq, Repr

/-- The wording of an access fault. -/
def AccessFault.message : AccessFault → Text
  | .notFound => "No such file or directory (os error 2)".toList
  | .notDirectory => "Not a directory (os error 20)".toList
  | .isDirectory => "Is a directory (os error 21)".toList
  | .nameTooLong => "File name too long (os error 36)".toList
  | .tooManyLinks => "Too many levels of symbolic links (os error 40)".toList
  | .permissionDenied => "Permission denied (os error 13)".toList
  | .inputOutput => "Input/output error (os error 5)".toList
  | .nulInPath => "file name contained an unexpected NUL byte".toList
  | .notUtf8 => "stream did not contain valid UTF-8".toList
  | .outputFull => "failed to write whole buffer".toList

end AssemblyDigest
