/-! # Text

Texts are lists of Unicode scalar values, so that every function on them is plain
recursion. This module cuts a text into lines and into pieces, glues lines together,
looks for one text inside another, and knows the escapes that quoted strings share.
-/

namespace AssemblyDigest

/-- A text: its Unicode scalar values, in order. -/
abbrev Text := List Char

/-- A byte string, such as the content of a file. -/
abbrev Bytes := List UInt8

namespace Text

/-- Puts a character in front of the first piece; of no pieces it makes one. -/
def consFirst (char : Char) : List Text → List Text
  | [] => [[char]]
  | piece :: pieces => (char :: piece) :: pieces

/-- The pieces between the separators; a text without one is a single piece. -/
def splitOn (separator : Char) : Text → List Text
  | [] => [[]]
  | char :: rest =>
      if char = separator then [] :: splitOn separator rest
      else consFirst char (splitOn separator rest)

/-- The lines of a text. A line ends at a line feed, and one carriage return directly
before it belongs to the ending. What follows the last ending is a line if it is not
empty, and keeps its carriage returns. -/
def lines : Text → List Text
  | [] => []
  | '\n' :: rest => [] :: lines rest
  | '\r' :: '\n' :: rest => [] :: lines rest
  | char :: rest => consFirst char (lines rest)

/-- Glues lines together with one line feed between neighbours. -/
def joinLines : List Text → Text
  | [] => []
  | [line] => line
  | line :: next :: more => line ++ '\n' :: joinLines (next :: more)

/-- Whether `fragment` occurs in a text as a run of neighbouring characters. -/
def contains (fragment : Text) : Text → Bool
  | [] => fragment.isEmpty
  | char :: rest => fragment.isPrefixOf (char :: rest) || contains fragment rest

/-- The decimal digits of a natural number. -/
def ofNat (number : Nat) : Text :=
  Nat.toDigits 10 number

/-- The decimal digits of an integer, after a minus sign if it is negative. -/
def ofInt : Int → Text
  | .ofNat number => ofNat number
  | .negSucc number => '-' :: ofNat (number + 1)

/-- A hexadecimal digit in lowercase. -/
def hexDigit (value : Nat) : Char :=
  if value < 10 then Char.ofNat (0x30 + value) else Char.ofNat (0x57 + value)

/-- The value of a hexadecimal digit. -/
def hexDigit? (char : Char) : Option Nat :=
  if '0' ≤ char ∧ char ≤ '9' then some (char.toNat - 0x30)
  else if 'a' ≤ char ∧ char ≤ 'f' then some (char.toNat - 0x57)
  else if 'A' ≤ char ∧ char ≤ 'F' then some (char.toNat - 0x37)
  else none

/-- The character that a letter after a backslash stands for. -/
def simpleEscape? (char : Char) : Option Char :=
  match char with
  | 'b' => some '\x08'
  | 't' => some '\t'
  | 'n' => some '\n'
  | 'f' => some '\x0C'
  | 'r' => some '\r'
  | '"' => some '"'
  | '\\' => some '\\'
  | _ => none

/-- Puts a character in front of a content that is read. -/
def withChar (char : Char) (result : Option (Text × Text)) : Option (Text × Text) :=
  result.map fun found => (char :: found.1, found.2)

theorem consFirst_ne_nil (char : Char) (pieces : List Text) : consFirst char pieces ≠ [] := by
  cases pieces <;> simp [consFirst]

theorem splitOn_ne_nil (separator : Char) (text : Text) : splitOn separator text ≠ [] := by
  cases text with
  | nil => simp [splitOn]
  | cons char rest =>
      rw [splitOn]
      split
      · simp
      · exact consFirst_ne_nil _ _

/-- Putting a character in front of the first line puts it in front of the whole text. -/
theorem joinLines_consFirst (char : Char) {pieces : List Text} (nonempty : pieces ≠ []) :
    joinLines (consFirst char pieces) = char :: joinLines pieces := by
  match pieces with
  | [] => exact absurd rfl nonempty
  | [piece] => rfl
  | piece :: next :: more => rfl

/-- Cutting a text at its line feeds loses nothing. -/
theorem joinLines_splitOn (text : Text) : joinLines (splitOn '\n' text) = text := by
  induction text with
  | nil => rfl
  | cons char rest ih =>
      rw [splitOn]
      split
      · next isFeed =>
          have nonempty := splitOn_ne_nil '\n' rest
          match pieces : splitOn '\n' rest with
          | [] => exact absurd pieces nonempty
          | piece :: more =>
              rw [pieces] at ih
              simp [joinLines, ih, isFeed]
      · rw [joinLines_consFirst char (splitOn_ne_nil '\n' rest), ih]

/-- A text contains a fragment if the fragment stands somewhere between two other texts. -/
theorem contains_eq_true_iff {fragment text : Text} :
    contains fragment text = true ↔ fragment <:+: text := by
  induction text with
  | nil => simp [contains]
  | cons char rest ih => simp [contains, ih, List.infix_cons_iff]

end Text

end AssemblyDigest
