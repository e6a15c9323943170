import AssemblyDigest.Text

/-! # Path texts

A path is a text whose elements are separated by `/`. The functions here look at the text
alone; what a path leads to is the concern of `AssemblyDigest.Volume`.
-/

namespace AssemblyDigest

namespace Path

/-- Whether a path starts at the root of the volume. -/
def isAbsolute (path : Text) : Bool :=
  path.head? == some '/'

/-- The path of `name` below `base`. A separator is put between them unless the base is
empty or ends with one; an absolute name stands for itself. -/
def join (base name : Text) : Text :=
  if isAbsolute name then name
  else if base.isEmpty || base.getLast? == some '/' then base ++ name
  else base ++ '/' :: name

/-- The elements of a path, with the empty ones left out. If separators follow the last
element, an empty element at the end records that the path must lead to a directory. -/
def elements (path : Text) : List Text :=
  match (Text.splitOn '/' path).filter (· ≠ []) with
  | [] => []
  | names => if path.getLast? == some '/' then names ++ [[]] else names

/-- Removes separators and `.` elements from the front of a reversed path. -/
def dropTail : Text → Text
  | [] => []
  | '/' :: rest => dropTail rest
  | '.' :: '/' :: rest => dropTail rest
  | ['.'] => []
  | path => path

/-- The last element of a path after trailing separators and `.` elements are skipped.
There is none if nothing remains or the element is `..`. -/
def baseName? (path : Text) : Option Text :=
  match ((dropTail path.reverse).takeWhile (· ≠ '/')).reverse with
  | [] => none
  | ['.', '.'] => none
  | name => some name

/-- The name a path is listed under: its base name, or the whole path without one. -/
def fileName (path : Text) : Text :=
  (baseName? path).getD path

end Path

end AssemblyDigest
