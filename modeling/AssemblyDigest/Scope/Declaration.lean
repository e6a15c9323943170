import AssemblyDigest.Text.Blank

/-! # Scope declarations

A scope declaration lists prefixes, one to a line. A path belongs to the scope if its text
contains one of them anywhere.
-/

namespace AssemblyDigest

/-- The prefixes of a scope, in order. -/
structure Declaration where
  prefixes : List Text
  deriving DecidableEq, Repr

namespace Declaration

/-- The declaration in a text: its lines without the blanks around them, except those that
are then empty. -/
def parse (text : Text) : Declaration where
  prefixes := ((Text.lines text).map Text.trim).filter (· ≠ [])

/-- Whether a declaration lists no prefixes. -/
def isEmpty (declaration : Declaration) : Bool :=
  declaration.prefixes.isEmpty

/-- Whether a path contains one of the prefixes. -/
def covers (declaration : Declaration) (path : Text) : Bool :=
  declaration.prefixes.any fun part => Text.contains part path

end Declaration

end AssemblyDigest
