import AssemblyDigest.Toml.Item

/-! # Building tables

A document is a list of statements: headers and assignments. The assignments after a
header fill the table it opens. A table is opened once by a header, a dotted key only
enters tables that no header opened, and no name is assigned twice; a statement against
these rules makes the whole document invalid.
-/

namespace AssemblyDigest

namespace Toml

/-- An item assigned to a dotted key: the parts before the last one, and the last. -/
structure Assignment where
  path : List Key
  key : Key
  item : Item
  /-- The number of characters after the value. -/
  stop : Nat

/-- The header of a table or, with doubled brackets, of one more table in a list. -/
structure Header where
  doubled : Bool
  path : List Key
  key : Key
  span : Span

/-- A statement of a document. -/
inductive Statement where
  | header (header : Header)
  | assignment (assignment : Assignment)

/-- Enters the tables along a path, makes those that are missing, and changes the entries
of the last one. The change is told whether that table was opened by a dotted key. -/
def enter (byDots : Bool) (change : Bool → Entries → Option Entries) :
    List Key → Bool → Entries → Option Entries
  | [], isDotted, entries => change isDotted entries
  | key :: path, _, entries =>
      match entries.find? key.name with
      | none => do
          let inner ← enter byDots change path byDots []
          let form := if byDots then TableForm.dotted else TableForm.implied
          some (entries ++ [(key, .table form inner)])
      | some (.table form inner) =>
          match form with
          | .inline _ => none
          | .header _ =>
              if byDots then none
              else do
                let inner ← enter byDots change path false inner
                some (entries.replace key.name (.table form inner))
          | .implied => do
              let inner ← enter byDots change path false inner
              some (entries.replace key.name (.table form inner))
          | .dotted => do
              let inner ← enter byDots change path true inner
              some (entries.replace key.name (.table form inner))
      | some (.tables span earlier latest) => do
          let latest ← enter byDots change path false latest
          some (entries.replace key.name (.tables span earlier latest))
      | some _ => none

/-- The entries of a table after one more assignment. A dotted key has to end in a table
that dotted keys opened. -/
def assign (entries : Entries) (assignment : Assignment) : Option Entries :=
  enter true
    (fun isDotted inner =>
      if isDotted = assignment.path.isEmpty then none
      else
        match inner.find? assignment.key.name with
        | some _ => none
        | none => some (inner ++ [(assignment.key, assignment.item)]))
    assignment.path false entries

/-- The entries of a table after assignments. -/
def assignAll : Entries → List Assignment → Option Entries
  | entries, [] => some entries
  | entries, assignment :: rest => do assignAll (← assign entries assignment) rest

/-- The span of a header together with the assignments below it: it reaches to the end of
the last value. -/
def sectionSpan (header : Header) (assignments : List Assignment) : Span :=
  match assignments.getLast? with
  | some assignment => ⟨header.span.start, assignment.stop⟩
  | none => header.span

/-- The entries around a header's table after the table is filled. A table that was only
implied so far is taken up and moves to the end. -/
def openTable (header : Header) (assignments : List Assignment) (entries : Entries) :
    Option Entries :=
  let span := sectionSpan header assignments
  match entries.find? header.key.name with
  | none => do
      let inner ← assignAll [] assignments
      let item := if header.doubled then Item.tables span [] inner else .table (.header span) inner
      some (entries ++ [(header.key, item)])
  | some (.tables whole earlier latest) =>
      if header.doubled then do
        let inner ← assignAll [] assignments
        some (entries.replace header.key.name
          (.tables ⟨whole.start, span.stop⟩ (earlier ++ [latest]) inner))
      else none
  | some (.table .implied inner) =>
      if header.doubled then none
      else do
        let inner ← assignAll inner assignments
        some (entries.remove header.key.name ++ [(header.key, .table (.header span) inner)])
  | some _ => none

/-- The assignments before the first header, and each header with those after it. -/
def sections : List Statement → List Assignment × List (Header × List Assignment)
  | [] => ([], [])
  | .assignment assignment :: rest =>
      let (assignments, others) := sections rest
      (assignment :: assignments, others)
  | .header header :: rest =>
      let (assignments, others) := sections rest
      ([], (header, assignments) :: others)

/-- The entries of a document after sections. -/
def addSections : Entries → List (Header × List Assignment) → Option Entries
  | entries, [] => some entries
  | entries, (header, assignments) :: rest => do
      let entries ← enter false (fun _ => openTable header assignments) header.path false entries
      addSections entries rest

/-- The top table of a document. -/
def Entries.ofStatements? (statements : List Statement) : Option Entries := do
  let (assignments, others) := sections statements
  addSections (← assignAll [] assignments) others

end Toml

end AssemblyDigest
