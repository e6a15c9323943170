import AssemblyDigest.Text

/-! # Character classes and blanks

A character class is a list of inclusive ranges of code points. A character is blank if it has the
Unicode property White_Space. Line feeds are blank, and so are the no-break and the ideographic
space; the zero-width space is not.
-/

namespace AssemblyDigest

/-- Inclusive ranges of code points. -/
abbrev Ranges := List (Nat × Nat)

/-- Whether some range holds the character. -/
def Ranges.holds (ranges : Ranges) (char : Char) : Bool :=
  ranges.any fun range => decide (range.1 ≤ char.toNat) && decide (char.toNat ≤ range.2)

namespace Text

/-- The characters with the property White_Space. -/
def blankRanges : Ranges :=
  [(0x9, 0xD), (0x20, 0x20), (0x85, 0x85), (0xA0, 0xA0), (0x1680, 0x1680), (0x2000, 0x200A),
   (0x2028, 0x2029), (0x202F, 0x202F), (0x205F, 0x205F), (0x3000, 0x3000)]

/-- Whether a character is blank. -/
def isBlank (char : Char) : Bool :=
  blankRanges.holds char

/-- A text without the blanks at its start. -/
def trimStart (text : Text) : Text :=
  text.dropWhile isBlank

/-- A text without the blanks at its end. -/
def trimEnd (text : Text) : Text :=
  (trimStart text.reverse).reverse

/-- A text without the blanks at either end. -/
def trim (text : Text) : Text :=
  trimEnd (trimStart text)

end Text

end AssemblyDigest
