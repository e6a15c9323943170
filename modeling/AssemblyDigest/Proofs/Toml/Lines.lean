import AssemblyDigest.Proofs.Toml.Spelling
import AssemblyDigest.Toml.Document
import Mathlib.Data.List.Forall2
import Mathlib.Data.List.TakeWhile

/-! # Documents of assigned strings

A line may assign a string to a key without quotes. A document of such lines, with different keys,
is read as the table in which the keys have these strings, in the order of the lines
(`AssemblyDigest.Toml.Written.exists_parse?`). The line feed after the last line may be missing.
-/

namespace AssemblyDigest

namespace Toml

/-- A name that can stand as a key without quotes. -/
structure BareKey (name : Text) : Prop where
  nonempty : name ≠ []
  bare : ∀ char ∈ name, isBareKeyChar char = true

/-- The lines that assign a content to a name. -/
inductive Line (name content : Text) : Text → Prop
  | assigned {spelling : Text} (key : BareKey name) (spelled : Spelled spelling content) :
      Line name content (name ++ ' ' :: '=' :: ' ' :: '"' :: (spelling ++ ['"']))

/-- The documents with one line for each of some names and contents. -/
inductive Written : List (Text × Text) → Text → Prop
  | nil : Written [] []
  | last {name content line : Text} (assigned : Line name content line) :
      Written [(name, content)] line
  | cons {name content line document : Text} {entries : List (Text × Text)}
      (assigned : Line name content line) (later : Written entries document) :
      Written ((name, content) :: entries) (line ++ '\n' :: document)

/-- An entry of a table that holds a string. -/
def Holds (entry : Key × Item) (named : Text × Text) : Prop :=
  entry.1.name = named.1 ∧ ∃ span, entry.2 = .scalar span (.text named.2)

section Characters

variable {char : Char} {rest : Text}

/-- Characters of bare keys differ from all others. -/
theorem ne_of_isBareKeyChar (bare : isBareKeyChar char = true) (other : Char)
    (notBare : isBareKeyChar other = false) : char ≠ other := by
  rintro rfl
  rw [bare] at notBare
  cases notBare

/-- A character of a bare key is no blank. -/
theorem skipBlanks_of_bare (bare : isBareKeyChar char = true) :
    skipBlanks (char :: rest) = char :: rest := by
  have notBlank : isLineBlank char = false := by
    simp [isLineBlank, ne_of_isBareKeyChar bare ' ' (by decide),
      ne_of_isBareKeyChar bare '\t' (by decide)]
  exact List.dropWhile_cons_of_neg (Bool.eq_false_iff.mp notBlank)

end Characters

namespace BareKey

variable {name : Text}

theorem exists_cons (key : BareKey name) :
    ∃ first more, name = first :: more ∧ isBareKeyChar first = true := by
  obtain ⟨first, more, rfl⟩ := List.exists_cons_of_ne_nil key.nonempty
  exact ⟨first, more, rfl, key.bare first List.mem_cons_self⟩

/-- A key is read up to the first character that cannot belong to it. -/
theorem readKeyPart?_append (key : BareKey name) (char : Char) (stops : isBareKeyChar char = false)
    (rest : Text) : ∃ span,
      readKeyPart? (name ++ char :: rest) = some (⟨name, span⟩, char :: rest) := by
  have taken : (name ++ char :: rest).takeWhile isBareKeyChar = name := by
    rw [List.takeWhile_append_of_pos key.bare, List.takeWhile_cons_of_neg (by simp [stops]),
      List.append_nil]
  have dropped : (name ++ char :: rest).dropWhile isBareKeyChar = char :: rest := by
    rw [List.dropWhile_append_of_pos key.bare, List.dropWhile_cons_of_neg (by simp [stops])]
  obtain ⟨first, more, rfl, bare⟩ := key.exists_cons
  refine ⟨.between (first :: more ++ char :: rest) (char :: rest), ?_⟩
  rw [readKeyPart?]
  · simp only [taken, dropped]
    rfl
  · rintro tail same
    exact ne_of_isBareKeyChar bare '"' (by decide) (List.cons.inj same).1
  · rintro tail same
    exact ne_of_isBareKeyChar bare '\'' (by decide) (List.cons.inj same).1

/-- A bare key is read up to the equals sign. -/
theorem readKey?_append (key : BareKey name) (parts : Nat) (rest : Text) : ∃ span,
    readKey? (parts + 1) (name ++ ' ' :: '=' :: rest) = some ([], ⟨name, span⟩, '=' :: rest) := by
  obtain ⟨span, read⟩ := key.readKeyPart?_append ' ' (by decide) ('=' :: rest)
  refine ⟨span, ?_⟩
  obtain ⟨first, more, rfl, bare⟩ := key.exists_cons
  rw [readKey?, List.cons_append, skipBlanks_of_bare bare, ← List.cons_append, read]
  rfl

end BareKey

/-- A value that begins with a quote is a string. -/
theorem readValue?_quote (depth : Nat) {text rest content : Text}
    (read : readString? ('"' :: text) = some (content, rest)) : ∃ span,
      readValue? depth ('"' :: text) = some (.scalar span (.text content), rest) := by
  refine ⟨.between ('"' :: text) rest, ?_⟩
  cases depth <;> simp [readValue?, read]

namespace Line

variable {name content line : Text}

/-- The assignment on a line is read up to the end of the line. -/
theorem exists_readAssignment? (assigned : Line name content line) (depth : Nat) {rest : Text}
    (noQuote : rest.head? ≠ some '"') : ∃ keySpan span,
      readAssignment? (readValue? depth) (line ++ rest) =
        some (⟨[], ⟨name, keySpan⟩, .scalar span (.text content), rest.length⟩, rest) := by
  cases assigned with
  | @assigned spelling key spelled =>
      obtain ⟨span, value⟩ := readValue?_quote depth (spelled.readString?_append noQuote)
      obtain ⟨keySpan, read⟩ := key.readKey?_append (nestingLimit - 2)
        (' ' :: '"' :: (spelling ++ '"' :: rest))
      refine ⟨keySpan, span, ?_⟩
      have limit : nestingLimit - 1 = nestingLimit - 2 + 1 := rfl
      have blank : skipBlanks (' ' :: '"' :: (spelling ++ '"' :: rest)) =
          '"' :: (spelling ++ '"' :: rest) := rfl
      have whole : name ++ ' ' :: '=' :: ' ' :: '"' :: (spelling ++ ['"']) ++ rest =
          name ++ ' ' :: '=' :: ' ' :: '"' :: (spelling ++ '"' :: rest) := by simp
      simp only [whole, readAssignment?, limit, read, bind, Option.bind, blank, value]

theorem exists_cons (assigned : Line name content line) :
    ∃ first more, line = first :: more ∧ isBareKeyChar first = true := by
  cases assigned with
  | assigned key spelled =>
      obtain ⟨first, more, rfl, bare⟩ := key.exists_cons
      exact ⟨first, _, rfl, bare⟩

end Line

/-- A statement that begins with a bare key is an assignment. -/
theorem readStatements?_of_bare {first : Char} (bare : isBareKeyChar first = true) (steps : Nat)
    (text : Text) :
    readStatements? (steps + 1) (first :: text) =
      (readAssignment? (readValue? (nestingLimit - 1)) (first :: text)).bind fun found =>
        (endLine? found.2).bind fun rest =>
          (readStatements? steps rest).bind fun statements =>
            some (.assignment found.1 :: statements) := by
  have different : ∀ other, isBareKeyChar other = false → first ≠ other :=
    ne_of_isBareKeyChar bare
  rw [readStatements?, skipBlanks_of_bare bare]
  split
  · next same => cases same
  · next same => exact (different '\n' (by decide) (List.cons.inj same).1).elim
  · next same => exact (different '\r' (by decide) (List.cons.inj same).1).elim
  · next same => exact (different '#' (by decide) (List.cons.inj same).1).elim
  · next same => exact (different '[' (by decide) (List.cons.inj same).1).elim
  · rfl

/-- An assignment that the text of a table may hold: of a string to a single name. -/
def Assigns (assignment : Assignment) (named : Text × Text) : Prop :=
  assignment.path = [] ∧ Holds (assignment.key, assignment.item) named

/-- A line and its end are read as one assignment. -/
theorem Line.exists_readStatements? {name content line : Text} (assigned : Line name content line)
    (rest : Text) {more : Text} (noQuote : rest.head? ≠ some '"')
    (ended : endLine? rest = some more) :
    ∃ assignment, Assigns assignment (name, content) ∧
      ∀ steps statements, readStatements? steps more = some statements →
        readStatements? (steps + 1) (line ++ rest) =
          some (.assignment assignment :: statements) := by
  obtain ⟨keySpan, span, read⟩ := assigned.exists_readAssignment? (nestingLimit - 1) noQuote
  obtain ⟨first, tail, rfl, bare⟩ := assigned.exists_cons
  refine ⟨⟨[], ⟨name, keySpan⟩, .scalar span (.text content), rest.length⟩,
    ⟨rfl, rfl, span, rfl⟩, fun steps statements later => ?_⟩
  rw [List.cons_append, readStatements?_of_bare bare, ← List.cons_append, read, Option.bind_some,
    ended, Option.bind_some, later, Option.bind_some]

/-- The lines of a document are read as one assignment each. -/
theorem Written.exists_readStatements? {entries : List (Text × Text)} {document : Text}
    (written : Written entries document) :
    ∃ assignments, List.Forall₂ Assigns assignments entries ∧ ∀ spare,
      readStatements? (entries.length + spare + 1) document =
        some (assignments.map .assignment) := by
  induction written with
  | nil => exact ⟨[], .nil, fun spare => rfl⟩
  | last assigned =>
      obtain ⟨assignment, assigns, read⟩ :=
        assigned.exists_readStatements? [] (by simp) rfl
      refine ⟨[assignment], .cons assigns .nil, fun spare => ?_⟩
      have read := read (1 + spare) [] (by rw [Nat.add_comm]; rfl)
      rwa [List.append_nil] at read
  | @cons name content line document entries assigned later ih =>
      obtain ⟨assignment, assigns, read⟩ :=
        assigned.exists_readStatements? ('\n' :: document) (by simp) rfl
      obtain ⟨assignments, others, readLater⟩ := ih
      refine ⟨assignment :: assignments, .cons assigns others, fun spare => ?_⟩
      have shifted : (entries.length + 1) + spare + 1 = (entries.length + spare + 1) + 1 := by omega
      rw [List.length_cons, shifted, read _ _ (readLater spare), List.map_cons]

/-- A document has a character for each of its lines, so that it is read in enough steps. -/
theorem Written.length_le {entries : List (Text × Text)} {document : Text}
    (written : Written entries document) : entries.length ≤ document.length := by
  induction written with
  | nil => exact Nat.le_refl 0
  | last assigned =>
      obtain ⟨first, more, rfl, -⟩ := assigned.exists_cons
      simp
  | cons assigned later ih =>
      rw [List.length_cons, List.length_append, List.length_cons]
      omega

/-! ### The table of a document -/

/-- No entry is found exactly if none has the name. -/
theorem Entries.find?_eq_none_iff {name : Text} {entries : Entries} :
    entries.find? name = none ↔ ∀ entry ∈ entries, entry.1.name ≠ name := by
  induction entries with
  | nil => simp [Entries.find?]
  | cons entry entries ih =>
      obtain ⟨key, item⟩ := entry
      rw [Entries.find?]
      split
      · next same => simp [same]
      · next different => simp [ih, different]

/-- An assignment to a free name is put at the end. -/
theorem assign_of_free {assignment : Assignment} {entries : Entries} (single : assignment.path = [])
    (free : entries.find? assignment.key.name = none) :
    assign entries assignment = some (entries ++ [(assignment.key, assignment.item)]) := by
  rw [assign, single, enter]
  simp [free]

/-- Assignments to different single names, none of them in the table yet, are put at its end. -/
theorem assignAll_eq_some {assignments : List Assignment} (entries : Entries)
    (single : ∀ assignment ∈ assignments, assignment.path = [])
    (distinct : (entries.map (·.1.name) ++ assignments.map (·.key.name)).Nodup) :
    assignAll entries assignments = some (entries ++ assignments.map fun a => (a.key, a.item)) := by
  induction assignments generalizing entries with
  | nil => rw [List.map_nil, List.append_nil, assignAll]
  | cons assignment assignments ih =>
      have free : entries.find? assignment.key.name = none := by
        refine Entries.find?_eq_none_iff.mpr fun entry member => ?_
        exact (List.nodup_append.mp distinct).2.2 _ (List.mem_map_of_mem member) _
          List.mem_cons_self
      rw [assignAll, assign_of_free (single assignment List.mem_cons_self) free]
      refine (ih _ (fun other member => single other (List.mem_cons_of_mem _ member)) ?_).trans ?_
      · simpa using distinct
      · simp

/-- Assignments without headers belong to the top of a document. -/
theorem sections_assignments (assignments : List Assignment) :
    sections (assignments.map .assignment) = (assignments, []) := by
  induction assignments with
  | nil => rfl
  | cons assignment assignments ih => rw [List.map_cons, sections, ih]

/-- A document of lines is empty or begins with a key. -/
theorem Written.eq_nil_or_exists_cons {entries : List (Text × Text)} {document : Text}
    (written : Written entries document) :
    document = [] ∨ ∃ first rest, document = first :: rest ∧ isBareKeyChar first = true := by
  cases written with
  | nil => exact Or.inl rfl
  | last assigned => exact Or.inr assigned.exists_cons
  | cons assigned later =>
      obtain ⟨first, more, rfl, bare⟩ := assigned.exists_cons
      exact Or.inr ⟨first, _, rfl, bare⟩

/-- A written document begins with no byte order mark. -/
theorem Written.dropMark_eq {entries : List (Text × Text)} {document : Text}
    (written : Written entries document) : dropMark document = document := by
  rcases written.eq_nil_or_exists_cons with rfl | ⟨first, rest, rfl, bare⟩
  · rfl
  · unfold dropMark
    split
    · next same =>
        exact (ne_of_isBareKeyChar bare '\uFEFF' (by decide) (List.cons.inj same).1).elim
    · rfl

/-- **Main result**: a document of lines with different keys is read as the table in which the
keys have the strings of the lines, in their order. -/
theorem Written.exists_parse? {entries : List (Text × Text)} {document : Text}
    (written : Written entries document) (distinct : (entries.map (·.1)).Nodup) :
    ∃ found, parse? document = some found ∧ List.Forall₂ Holds found entries := by
  obtain ⟨assignments, assigned, read⟩ := written.exists_readStatements?
  obtain ⟨spare, steps⟩ := Nat.exists_eq_add_of_le written.length_le
  have conditions : List.Forall₂ (fun (a : Assignment) named => a.path = [] ∧
      Holds (a.key, a.item) named) assignments entries := assigned
  obtain ⟨single, holds⟩ := (List.forall₂_and_left _ _).mp conditions
  have names : assignments.map (·.key.name) = entries.map (·.1) := by
    rw [← List.forall₂_eq_eq_eq, List.forall₂_map_left_iff, List.forall₂_map_right_iff]
    exact holds.imp fun assignment named held => held.1
  refine ⟨assignments.map fun a => (a.key, a.item), ?_, List.forall₂_map_left_iff.mpr holds⟩
  have added := assignAll_eq_some [] single (by simpa [names] using distinct)
  rw [parse?]
  simp [written.dropMark_eq, steps, read, Entries.ofStatements?, sections_assignments, added,
    addSections]

/-- Entries written as lines, each with its line feed. -/
def writeLines : List (Text × Text) → Text
  | [] => []
  | (name, content) :: entries =>
      name ++ ' ' :: '=' :: ' ' :: '"' :: (content.flatMap escapeChar ++ ['"']) ++
        '\n' :: writeLines entries

/-- Any contents can be written as lines under names that can stand without quotes. -/
theorem written_writeLines {entries : List (Text × Text)}
    (keys : ∀ entry ∈ entries, BareKey entry.1) : Written entries (writeLines entries) := by
  induction entries with
  | nil => exact .nil
  | cons entry entries ih =>
      have key : BareKey entry.1 := keys entry List.mem_cons_self
      exact .cons (.assigned key (spelled_escape entry.2))
        (ih fun other member => keys other (List.mem_cons_of_mem _ member))

end Toml

end AssemblyDigest
