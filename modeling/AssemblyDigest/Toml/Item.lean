import AssemblyDigest.Decimal.Binary64

/-! # Items of a TOML document

A document is a table: keys with items, in the order in which they came in. Every key and
every written value carries the span of its text, so that a reader of the document can
point at it.
-/

namespace AssemblyDigest

namespace Toml

/-- A stretch of a document. Both ends are given by the number of characters from there to
the end of the document, so `start` is not less than `stop`. -/
structure Span where
  start : Nat
  stop : Nat
  deriving DecidableEq, Repr

/-- The span between two remainders of a document. -/
def Span.between (first last : Text) : Span where
  start := first.length
  stop := last.length

/-- A key as it was written. -/
structure Key where
  name : Text
  span : Span
  deriving DecidableEq, Repr

/-- A value without parts. -/
inductive Scalar where
  | text (content : Text)
  | integer (value : Int)
  | float (value : Binary64)
  | boolean (value : Bool)
  | datetime (written : Text)
  deriving DecidableEq, Repr

/-- How a table came to be. -/
inductive TableForm where
  /-- Written between braces. -/
  | inline (span : Span)
  /-- Opened by a header of its own. -/
  | header (span : Span)
  /-- Opened on the way to a table below it by that table's header. -/
  | implied
  /-- Opened by a dotted key. -/
  | dotted
  deriving DecidableEq, Repr

/-- The span of a table that was written as such. -/
def TableForm.span? : TableForm → Option Span
  | .inline span => some span
  | .header span => some span
  | .implied => none
  | .dotted => none

/-- What a key stands for. -/
inductive Item where
  | scalar (span : Span) (value : Scalar)
  | array (span : Span) (items : List Item)
  | table (form : TableForm) (entries : List (Key × Item))
  /-- Tables opened one after the other by `[[ ]]` headers. -/
  | tables (span : Span) (earlier : List (List (Key × Item))) (latest : List (Key × Item))

/-- The entries of a table, in document order. -/
abbrev Entries := List (Key × Item)

/-- The span of an item that was written as such. -/
def Item.span? : Item → Option Span
  | .scalar span _ => some span
  | .array span _ => some span
  | .table form _ => form.span?
  | .tables span _ _ => some span

namespace Entries

/-- The item of a name. -/
def find? (name : Text) : Entries → Option Item
  | [] => none
  | (key, item) :: rest => if key.name = name then some item else find? name rest

/-- The entries with the item of a name replaced; the key stays as it was first written. -/
def replace (name : Text) (item : Item) : Entries → Entries
  | [] => []
  | (key, old) :: rest =>
      if key.name = name then (key, item) :: rest else (key, old) :: replace name item rest

/-- The entries without a name. -/
def remove (name : Text) (entries : Entries) : Entries :=
  entries.filter (·.1.name ≠ name)

end Entries

end Toml

end AssemblyDigest
