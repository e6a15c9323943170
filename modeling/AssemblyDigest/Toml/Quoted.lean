import AssemblyDigest.Text

/-! # TOML strings

Basic strings have escapes, literal strings have none; tripled quotes let a string run
over several lines. Each reader starts after the opening quotes and gives the content and
what follows the closing quotes.
-/

namespace AssemblyDigest

namespace Toml

/-- Whether a character may stand in a string or comment: a tab or no ASCII control. -/
def isPlain (char : Char) : Bool :=
  char = '\t' || (0x20 ≤ char.toNat && char.toNat ≠ 0x7F)

/-- Whether a character is a blank within a line. -/
def isLineBlank (char : Char) : Bool :=
  char = ' ' || char = '\t'

/-- The character of a code point; surrogates are no characters. -/
def scalarOf? (code : Nat) : Option Char :=
  if code < 0xD800 ∨ (0xDFFF < code ∧ code < 0x110000) then some (Char.ofNat code) else none

/-- Where a reader of basic strings stands. -/
inductive EscapeState where
  | plain
  /-- After a backslash. -/
  | escape
  /-- Inside a code point with so many digits to come. -/
  | code (missing value : Nat)
  /-- After a backslash and blanks at the end of a line. -/
  | lineEnd
  /-- At the blanks that a backslash at the end of a line removes. -/
  | folding

/-- Reads a basic string on one line. -/
def readBasic : EscapeState → Text → Option (Text × Text)
  | .plain, '"' :: rest => some ([], rest)
  | .plain, '\\' :: rest => readBasic .escape rest
  | .plain, char :: rest =>
      if isPlain char then Text.withChar char (readBasic .plain rest) else none
  | .escape, 'u' :: rest => readBasic (.code 4 0) rest
  | .escape, 'U' :: rest => readBasic (.code 8 0) rest
  | .escape, char :: rest =>
      match Text.simpleEscape? char with
      | some meant => Text.withChar meant (readBasic .plain rest)
      | none => none
  | .code missing value, char :: rest =>
      match Text.hexDigit? char with
      | none => none
      | some digit =>
          let value := value * 16 + digit
          if missing ≤ 1 then
            match scalarOf? value with
            | some meant => Text.withChar meant (readBasic .plain rest)
            | none => none
          else readBasic (.code (missing - 1) value) rest
  | _, _ => none

/-- Ends a string at tripled quotes; up to two more quotes before the end belong to it. -/
def closeTripled (quote : Char) (rest : Text) : Text × Text :=
  match rest with
  | first :: second :: more =>
      if first = quote then
        if second = quote then ([quote, quote], more) else ([quote], second :: more)
      else ([], rest)
  | [first] => if first = quote then ([quote], []) else ([], rest)
  | [] => ([], [])

/-- Reads a basic string that may run over several lines. -/
def readLongBasic : EscapeState → Text → Option (Text × Text)
  | .plain, '"' :: '"' :: '"' :: rest => some (closeTripled '"' rest)
  | .plain, '\\' :: rest => readLongBasic .escape rest
  | .plain, '\n' :: rest => Text.withChar '\n' (readLongBasic .plain rest)
  | .plain, '\r' :: '\n' :: rest => Text.withChar '\n' (readLongBasic .plain rest)
  | .plain, char :: rest =>
      if isPlain char then Text.withChar char (readLongBasic .plain rest) else none
  | .escape, 'u' :: rest => readLongBasic (.code 4 0) rest
  | .escape, 'U' :: rest => readLongBasic (.code 8 0) rest
  | .escape, '\n' :: rest => readLongBasic .folding rest
  | .escape, '\r' :: '\n' :: rest => readLongBasic .folding rest
  | .escape, char :: rest =>
      if isLineBlank char then readLongBasic .lineEnd rest
      else
        match Text.simpleEscape? char with
        | some meant => Text.withChar meant (readLongBasic .plain rest)
        | none => none
  | .lineEnd, '\n' :: rest => readLongBasic .folding rest
  | .lineEnd, '\r' :: '\n' :: rest => readLongBasic .folding rest
  | .lineEnd, char :: rest => if isLineBlank char then readLongBasic .lineEnd rest else none
  | .folding, '"' :: '"' :: '"' :: rest => some (closeTripled '"' rest)
  | .folding, '\\' :: rest => readLongBasic .escape rest
  | .folding, '\n' :: rest => readLongBasic .folding rest
  | .folding, '\r' :: '\n' :: rest => readLongBasic .folding rest
  | .folding, char :: rest =>
      if isLineBlank char then readLongBasic .folding rest
      else if isPlain char then Text.withChar char (readLongBasic .plain rest)
      else none
  | .code missing value, char :: rest =>
      match Text.hexDigit? char with
      | none => none
      | some digit =>
          let value := value * 16 + digit
          if missing ≤ 1 then
            match scalarOf? value with
            | some meant => Text.withChar meant (readLongBasic .plain rest)
            | none => none
          else readLongBasic (.code (missing - 1) value) rest
  | _, [] => none

/-- Reads a literal string on one line. -/
def readLiteral : Text → Option (Text × Text)
  | [] => none
  | char :: rest =>
      if char = '\'' then some ([], rest)
      else if isPlain char then Text.withChar char (readLiteral rest)
      else none

/-- Reads a literal string that may run over several lines. -/
def readLongLiteral : Text → Option (Text × Text)
  | '\'' :: '\'' :: '\'' :: rest => some (closeTripled '\'' rest)
  | '\n' :: rest => Text.withChar '\n' (readLongLiteral rest)
  | '\r' :: '\n' :: rest => Text.withChar '\n' (readLongLiteral rest)
  | char :: rest => if isPlain char then Text.withChar char (readLongLiteral rest) else none
  | [] => none

/-- Skips the line end directly after the opening quotes of a long string. -/
def skipLineEnd : Text → Text
  | '\n' :: rest => rest
  | '\r' :: '\n' :: rest => rest
  | text => text

/-- Reads a string with its quotes, long or short. -/
def readString? : Text → Option (Text × Text)
  | '"' :: '"' :: '"' :: rest => readLongBasic .plain (skipLineEnd rest)
  | '"' :: rest => readBasic .plain rest
  | '\'' :: '\'' :: '\'' :: rest => readLongLiteral (skipLineEnd rest)
  | '\'' :: rest => readLiteral rest
  | _ => none

end Toml

end AssemblyDigest
