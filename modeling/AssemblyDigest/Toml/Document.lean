import AssemblyDigest.Toml.Bare
import AssemblyDigest.Toml.Quoted
import AssemblyDigest.Toml.Table

/-! # Reading TOML documents

A document is read statement by statement, and the statements build its top table. Arrays
and inline tables may be nested, and dotted keys be long, up to a fixed limit. A text that
is no document has no reading; where it goes wrong is not recorded.
-/

namespace AssemblyDigest

namespace Toml

/-- Arrays and inline tables are nested less deeply than this. -/
def nestingLimit : Nat := 80

/-- Whether a character may stand in a key without quotes. -/
def isBareKeyChar (char : Char) : Bool :=
  char.isAlphanum || char = '_' || char = '-'

/-- A text without the blanks at its start; line ends are not skipped. -/
def skipBlanks (text : Text) : Text :=
  text.dropWhile isLineBlank

/-- What follows a line end, or the end of the document. -/
def lineEnd? : Text → Option Text
  | [] => some []
  | '\n' :: rest => some rest
  | '\r' :: '\n' :: rest => some rest
  | _ => none

/-- What follows the blanks, the comment and the end of a line. -/
def endLine? (text : Text) : Option Text :=
  match skipBlanks text with
  | '#' :: rest => lineEnd? (rest.dropWhile isPlain)
  | rest => lineEnd? rest

/-- Skips blanks, line ends and comments. A comment that does not end with its line stops
the skipping. -/
def skipGaps : Bool → Text → Text
  | _, [] => []
  | _, '\n' :: rest => skipGaps false rest
  | _, '\r' :: '\n' :: rest => skipGaps false rest
  | true, char :: rest => if isPlain char then skipGaps true rest else char :: rest
  | false, char :: rest =>
      if isLineBlank char then skipGaps false rest
      else if char = '#' then skipGaps true rest
      else char :: rest

/-- Reads one part of a key. -/
def readKeyPart? (text : Text) : Option (Key × Text) :=
  match text with
  | '"' :: rest => do
      let (name, rest) ← readBasic .plain rest
      some (⟨name, .between text rest⟩, rest)
  | '\'' :: rest => do
      let (name, rest) ← readLiteral rest
      some (⟨name, .between text rest⟩, rest)
  | _ =>
      let name := text.takeWhile isBareKeyChar
      let rest := text.dropWhile isBareKeyChar
      if name.isEmpty then none else some (⟨name, .between text rest⟩, rest)

/-- Reads a key of at most the given number of parts, with the blanks around the parts. -/
def readKey? : Nat → Text → Option (List Key × Key × Text)
  | 0, _ => none
  | parts + 1, text => do
      let (key, rest) ← readKeyPart? (skipBlanks text)
      match skipBlanks rest with
      | '.' :: rest => do
          let (path, last, rest) ← readKey? parts rest
          some (key :: path, last, rest)
      | rest => some ([], key, rest)

/-- Reads an assignment, given a reader of values. -/
def readAssignment? (value : Text → Option (Item × Text)) (text : Text) :
    Option (Assignment × Text) := do
  let (path, key, rest) ← readKey? (nestingLimit - 1) text
  match rest with
  | '=' :: rest => do
      let (item, rest) ← value (skipBlanks rest)
      some (⟨path, key, item, rest.length⟩, rest)
  | _ => none

/-- Reads the values of an array up to its closing bracket. -/
def readItems? (value : Text → Option (Item × Text)) : Nat → Text → Option (List Item × Text)
  | 0, _ => none
  | steps + 1, text =>
      match skipGaps false text with
      | ']' :: rest => some ([], rest)
      | text => do
          let (item, rest) ← value text
          match skipGaps false rest with
          | ']' :: rest => some ([item], rest)
          | ',' :: rest => do
              let (items, rest) ← readItems? value steps rest
              some (item :: items, rest)
          | _ => none

/-- Reads the assignments of an inline table, of which there is at least one, up to its
closing brace. -/
def readFields? (value : Text → Option (Item × Text)) :
    Nat → Text → Option (List Assignment × Text)
  | 0, _ => none
  | steps + 1, text => do
      let (assignment, rest) ← readAssignment? value text
      match skipBlanks rest with
      | '}' :: rest => some ([assignment], rest)
      | ',' :: rest => do
          let (assignments, rest) ← readFields? value steps rest
          some (assignment :: assignments, rest)
      | _ => none

/-- Reads a value with at most the given depth of nesting. -/
def readValue? : Nat → Text → Option (Item × Text)
  | depth, text =>
      match text, depth with
      | '[' :: _, 0 => none
      | '{' :: _, 0 => none
      | '[' :: rest, depth + 1 => do
          let (items, rest) ← readItems? (readValue? depth) (rest.length + 1) rest
          some (.array (.between text rest) items, rest)
      | '{' :: rest, depth + 1 =>
          match skipBlanks rest with
          | '}' :: rest => some (.table (.inline (.between text rest)) [], rest)
          | rest => do
              let (assignments, rest) ← readFields? (readValue? depth) (rest.length + 1) rest
              let entries ← assignAll [] assignments
              some (.table (.inline (.between text rest)) entries, rest)
      | '"' :: _, _ => do
          let (content, rest) ← readString? text
          some (.scalar (.between text rest) (.text content), rest)
      | '\'' :: _, _ => do
          let (content, rest) ← readString? text
          some (.scalar (.between text rest) (.text content), rest)
      | _, _ => do
          let (value, rest) ← readBare? text
          some (.scalar (.between text rest) value, rest)

/-- Reads a header between its brackets. -/
def readHeader? (text : Text) : Option (Header × Text) :=
  match text with
  | '[' :: '[' :: rest => do
      let (path, key, rest) ← readKey? (nestingLimit - 1) rest
      match rest with
      | ']' :: ']' :: rest => some (⟨true, path, key, .between text rest⟩, rest)
      | _ => none
  | '[' :: rest => do
      let (path, key, rest) ← readKey? (nestingLimit - 1) rest
      match rest with
      | ']' :: rest => some (⟨false, path, key, .between text rest⟩, rest)
      | _ => none
  | _ => none

/-- Reads the statements of a document in at most the given number of steps. -/
def readStatements? : Nat → Text → Option (List Statement)
  | 0, _ => none
  | steps + 1, text =>
      match skipBlanks text with
      | [] => some []
      | '\n' :: rest => readStatements? steps rest
      | '\r' :: '\n' :: rest => readStatements? steps rest
      | '#' :: rest => do readStatements? steps (← endLine? ('#' :: rest))
      | '[' :: rest => do
          let (header, rest) ← readHeader? ('[' :: rest)
          let statements ← readStatements? steps (← endLine? rest)
          some (.header header :: statements)
      | text => do
          let (assignment, rest) ← readAssignment? (readValue? (nestingLimit - 1)) text
          let statements ← readStatements? steps (← endLine? rest)
          some (.assignment assignment :: statements)

/-- A text without the byte order mark at its start. -/
def dropMark : Text → Text
  | '\uFEFF' :: rest => rest
  | text => text

/-- Reads a document. -/
def parse? (document : Text) : Option Entries := do
  let text := dropMark document
  Entries.ofStatements? (← readStatements? (text.length + 1) text)

end Toml

end AssemblyDigest
