import AssemblyDigest.Json

/-! # The grammar of JSON

A JSON text is a value between gaps of blanks. A value is a word, a string, or a list or record
in brackets, and the items of a list and the fields of a record form a series with commas
between them. What a text denotes is given here by rules for each of these; the escapes in a
string are undone, and numbers are kept as they are written.
-/

namespace AssemblyDigest

namespace Json

/-- What a JSON text stands for. -/
inductive Value where
  | null
  | boolean (value : Bool)
  | number (literal : Text)
  | text (content : Text)
  | list (items : List Value)
  | record (fields : List (Text × Value))

/-- Whether a character is a blank of JSON. -/
def isGapChar (char : Char) : Bool :=
  char = ' ' || char = '\t' || char = '\n' || char = '\r'

/-- A text of blanks. -/
def Gap (text : Text) : Prop :=
  ∀ char ∈ text, isGapChar char = true

section Numbers

/-- A text without the sign it may begin with. -/
def unsigned (signs : List Char) : Text → Text
  | [] => []
  | char :: rest => if char ∈ signs then rest else char :: rest

/-- Whether a text is a run of digits. -/
def isDigits (text : Text) : Bool :=
  !text.isEmpty && text.all Char.isDigit

/-- Whether a text is the exponent of a number, or nothing. -/
def isExponent : Text → Bool
  | [] => true
  | mark :: rest => (mark = 'e' || mark = 'E') && isDigits (unsigned ['+', '-'] rest)

/-- Whether a text is the fraction and the exponent of a number, each of which may be missing. -/
def isFraction : Text → Bool
  | '.' :: rest =>
      !(rest.takeWhile Char.isDigit).isEmpty && isExponent (rest.dropWhile Char.isDigit)
  | rest => isExponent rest

/-- Whether a text is a number. Only the number zero begins with a zero. -/
def isNumber (word : Text) : Bool :=
  let digits := (unsigned ['-'] word).takeWhile Char.isDigit
  (digits = ['0'] || (!digits.isEmpty && digits.head? ≠ some '0')) &&
    isFraction ((unsigned ['-'] word).dropWhile Char.isDigit)

end Numbers

/-- The values that are written as a single word. -/
inductive Word : Text → Value → Prop
  | null : Word "null".toList .null
  | yes : Word "true".toList (.boolean true)
  | no : Word "false".toList (.boolean false)
  | number {word : Text} (valid : isNumber word = true) : Word word (.number word)

section Strings

/-- The character that a letter after a backslash stands for. -/
def meaning? (letter : Char) : Option Char :=
  if letter = '/' then some '/' else Text.simpleEscape? letter

/-- The code unit of four hexadecimal digits. -/
def codeUnit? (first second third fourth : Char) : Option Nat := do
  let thousands ← Text.hexDigit? first
  let hundreds ← Text.hexDigit? second
  let tens ← Text.hexDigit? third
  let ones ← Text.hexDigit? fourth
  some (((thousands * 16 + hundreds) * 16 + tens) * 16 + ones)

/-- Whether a code unit is the first of a pair. -/
def isHigh (unit : Nat) : Bool :=
  0xD800 ≤ unit && unit < 0xDC00

/-- Whether a code unit is the second of a pair. -/
def isLow (unit : Nat) : Bool :=
  0xDC00 ≤ unit && unit < 0xE000

/-- The character of a pair of code units. -/
def charOfPair (high low : Nat) : Char :=
  Char.ofNat (0x10000 + (high - 0xD800) * 0x400 + (low - 0xDC00))

/-- Whether a character stands for itself in a string. -/
def isVisible (char : Char) : Bool :=
  0x20 ≤ char.toNat && char ≠ '"' && char ≠ '\\'

/-- The spellings of a character in a string. -/
inductive Spelling : Text → Char → Prop
  | itself {char : Char} (visible : isVisible char = true) : Spelling [char] char
  | letter {letter char : Char} (meant : meaning? letter = some char) :
      Spelling ['\\', letter] char
  | unit {a b c d : Char} {unit : Nat} (digits : codeUnit? a b c d = some unit)
      (notHigh : isHigh unit = false) (notLow : isLow unit = false) :
      Spelling ['\\', 'u', a, b, c, d] (Char.ofNat unit)
  | pair {a b c d e f g h : Char} {high low : Nat} (first : codeUnit? a b c d = some high)
      (isHigh : isHigh high = true) (second : codeUnit? e f g h = some low)
      (isLow : isLow low = true) :
      Spelling ['\\', 'u', a, b, c, d, '\\', 'u', e, f, g, h] (charOfPair high low)

/-- The spellings of a text, character by character. -/
inductive Spelled : Text → Text → Prop
  | nil : Spelled [] []
  | cons {spelling rest content : Text} {char : Char} (first : Spelling spelling char)
      (later : Spelled rest content) : Spelled (spelling ++ rest) (char :: content)

end Strings

/-- Elements with commas between them and gaps around them. -/
inductive Series {α : Type} (element : Text → α → Prop) : Text → List α → Prop
  | last {before text after : Text} {item : α} (gap : Gap before) (inside : element text item)
      (gapAfter : Gap after) : Series element (before ++ text ++ after) [item]
  | more {before text after rest : Text} {item : α} {items : List α} (gap : Gap before)
      (inside : element text item) (gapAfter : Gap after) (later : Series element rest items) :
      Series element (before ++ text ++ after ++ ',' :: rest) (item :: items)

/-- A series in brackets, or a gap in brackets for no elements. -/
inductive Bracketed {α : Type} (opening closing : Char) (element : Text → α → Prop) :
    Text → List α → Prop
  | empty {gap : Text} (blank : Gap gap) :
      Bracketed opening closing element (opening :: gap ++ [closing]) []
  | series {body : Text} {items : List α} (inside : Series element body items) :
      Bracketed opening closing element (opening :: body ++ [closing]) items

/-- A name and a value with a colon between them. -/
inductive Field (denotes : Text → Value → Prop) : Text → Text × Value → Prop
  | named {spelling name before after text : Text} {value : Value}
      (spelled : Spelled spelling name) (gap : Gap before) (gapAfter : Gap after)
      (inside : denotes text value) :
      Field denotes ('"' :: spelling ++ '"' :: before ++ ':' :: after ++ text) (name, value)

/-- What a text without gaps around it denotes. -/
inductive Denotes : Text → Value → Prop
  | word {word : Text} {value : Value} (single : Word word value) : Denotes word value
  | text {spelling content : Text} (spelled : Spelled spelling content) :
      Denotes ('"' :: spelling ++ ['"']) (.text content)
  | list {text : Text} {items : List Value} (inside : Bracketed '[' ']' Denotes text items) :
      Denotes text (.list items)
  | record {text : Text} {fields : List (Text × Value)}
      (inside : Bracketed '\x7b' '\x7d' (Field Denotes) text fields) :
      Denotes text (.record fields)

/-- What a whole text denotes. -/
inductive Document : Text → Value → Prop
  | between {before text after : Text} {value : Value} (gap : Gap before)
      (inside : Denotes text value) (gapAfter : Gap after) :
      Document (before ++ text ++ after) value

end Json

end AssemblyDigest
