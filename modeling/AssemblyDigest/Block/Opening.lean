import AssemblyDigest.Text.WordClass

/-! # Where a block opens

A line opens an assembly block if it holds the keyword `assembly`, not glued to a word
character before it, then any blanks, then an opening brace.
-/

namespace AssemblyDigest

namespace Block

/-- The keyword of an assembly block. -/
def keyword : Text := ['a', 's', 's', 'e', 'm', 'b', 'l', 'y']

/-- Whether a text begins with the keyword, blanks and an opening brace. -/
def beginsWithOpening (text : Text) : Bool :=
  match keyword.isPrefixOf? text with
  | some rest => (Text.trimStart rest).head? == some '{'
  | none => false

/-- Whether an opening occurs in a text, given whether the character before the text
belongs to a word. -/
def opensAfter (afterWord : Bool) : Text → Bool
  | [] => false
  | char :: rest =>
      (!afterWord && beginsWithOpening (char :: rest)) || opensAfter (Text.isWordChar char) rest

/-- Whether a line opens an assembly block. -/
def opens (line : Text) : Bool :=
  opensAfter false line

end Block

end AssemblyDigest
