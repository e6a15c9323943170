import AssemblyDigest.Text

/-! # JSON

Values are strings, lists and records. They are written with two blanks of indentation for
each level, one item or field to a line; an empty list or record is a pair of brackets. In
a string only quotes, backslashes and control characters are escaped.
-/

namespace AssemblyDigest

/-- A JSON value. -/
inductive Json where
  | text (content : Text)
  | list (items : List Json)
  | record (fields : List (Text × Json))

namespace Json

/-- A character inside a string. -/
def escapeChar (char : Char) : Text :=
  if char = '"' then ['\\', '"']
  else if char = '\\' then ['\\', '\\']
  else if char = '\n' then ['\\', 'n']
  else if char = '\r' then ['\\', 'r']
  else if char = '\t' then ['\\', 't']
  else if char = '\x08' then ['\\', 'b']
  else if char = '\x0C' then ['\\', 'f']
  else if char.toNat < 0x20 then
    ['\\', 'u', '0', '0', Text.hexDigit (char.toNat / 16), Text.hexDigit (char.toNat % 16)]
  else [char]

/-- A string with its quotes. -/
def quote (content : Text) : Text :=
  '"' :: content.flatMap escapeChar ++ ['"']

/-- The blanks at the start of a line. -/
def indent (level : Nat) : Text :=
  List.replicate (2 * level) ' '

mutual

/-- A value whose brackets stand at a level of indentation. -/
def pretty : Json → Nat → Text
  | .text content, _ => quote content
  | .list [], _ => ['[', ']']
  | .list (item :: items), level =>
      '[' :: '\n' :: prettyItems (item :: items) (level + 1) ++ '\n' :: indent level ++ [']']
  | .record [], _ => ['\x7b', '\x7d']
  | .record (field :: fields), level =>
      '\x7b' :: '\n' :: prettyFields (field :: fields) (level + 1) ++
        '\n' :: indent level ++ ['\x7d']
termination_by structural value => value

/-- Items at a level of indentation, separated by commas. -/
def prettyItems : List Json → Nat → Text
  | [], _ => []
  | [item], level => indent level ++ pretty item level
  | item :: next :: more, level =>
      indent level ++ pretty item level ++ ',' :: '\n' :: prettyItems (next :: more) level
termination_by structural items => items

/-- Fields at a level of indentation, separated by commas. -/
def prettyFields : List (Text × Json) → Nat → Text
  | [], _ => []
  | [(name, value)], level => indent level ++ quote name ++ ':' :: ' ' :: pretty value level
  | (name, value) :: next :: more, level =>
      indent level ++ quote name ++ ':' :: ' ' :: pretty value level ++
        ',' :: '\n' :: prettyFields (next :: more) level
termination_by structural fields => fields

end

end Json

end AssemblyDigest
