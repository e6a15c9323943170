import AssemblyDigest.Proofs.Toml.Lines
import Mathlib.Data.List.Nodup

/-! # The names of the top table

A header and an assignment each begin with a part of a key, which names an entry of the table they
are read into. Reading them adds this name if it is new, and takes none away, even where an entry
moves to the end (`AssemblyDigest.Toml.gains_enter`, `AssemblyDigest.Toml.gains_openTable`). So the
names of the top table of a document are the first parts of its headers and of the assignments
before the first header, each of them once (`AssemblyDigest.Toml.names_of_parse?`).
-/

namespace AssemblyDigest

namespace Toml

namespace Entries

/-- The names of entries, in order. -/
def names (entries : Entries) : List Text :=
  entries.map (·.1.name)

theorem names_append (first second : Entries) :
    names (first ++ second) = first.names ++ second.names :=
  List.map_append

theorem find?_eq_none_iff_not_mem {name : Text} {entries : Entries} :
    entries.find? name = none ↔ name ∉ entries.names := by
  rw [find?_eq_none_iff, names, List.mem_map]
  constructor
  · rintro absent ⟨entry, member, same⟩
    exact absent entry member same
  · exact fun absent entry member same => absent ⟨entry, member, same⟩

theorem mem_names_of_find? {name : Text} {item : Item} {entries : Entries}
    (found : entries.find? name = some item) : name ∈ entries.names := by
  by_contra absent
  rw [find?_eq_none_iff_not_mem.mpr absent] at found
  cases found

theorem names_replace (name : Text) (item : Item) (entries : Entries) :
    (entries.replace name item).names = entries.names := by
  induction entries with
  | nil => rfl
  | cons entry entries ih =>
      rw [replace]
      split
      · rfl
      · exact congrArg (entry.1.name :: ·) ih

theorem names_remove (name : Text) (entries : Entries) :
    (entries.remove name).names = entries.names.filter (· ≠ name) := by
  rw [remove, names, names, List.filter_map]
  rfl

end Entries

/-- Entries after a change have the names they had before and the given ones, and none twice if
none was there twice. -/
structure Gains (gained : List Text) (before after : Entries) : Prop where
  mem : ∀ name, name ∈ after.names ↔ name ∈ before.names ∨ name ∈ gained
  nodup : before.names.Nodup → after.names.Nodup

namespace Gains

variable {before after later : Entries} {gained more : List Text} {key : Key} {item : Item}

theorem refl (entries : Entries) : Gains [] entries entries :=
  ⟨fun name => by simp, id⟩

/-- What is gained in two changes is gained in the first or in the second. -/
theorem trans (first : Gains gained before after) (second : Gains more after later) :
    Gains (gained ++ more) before later :=
  ⟨fun name => by rw [second.mem, first.mem, List.mem_append, or_assoc],
    fun distinct => second.nodup (first.nodup distinct)⟩

/-- A new entry at the end. -/
theorem append (free : before.find? key.name = none) (item : Item) :
    Gains [key.name] before (before ++ [(key, item)]) := by
  have absent := Entries.find?_eq_none_iff_not_mem.mp free
  have names : (before ++ [(key, item)]).names = before.names ++ [key.name] :=
    before.names_append _
  constructor
  · intro name
    rw [names, List.mem_append]
  · intro distinct
    rw [names, List.nodup_append]
    refine ⟨distinct, List.nodup_singleton _, fun first member second last => ?_⟩
    rintro rfl
    rw [List.mem_singleton] at last
    exact absent (last ▸ member)

/-- Another item under a name. -/
theorem replace {name : Text} (found : before.find? name = some item) (other : Item) :
    Gains [name] before (before.replace name other) := by
  have present := Entries.mem_names_of_find? found
  constructor
  · intro query
    rw [Entries.names_replace, List.mem_singleton]
    exact ⟨Or.inl, fun either => either.elim id fun same => same ▸ present⟩
  · intro distinct
    rwa [Entries.names_replace]

/-- An entry that is taken away and put at the end again. -/
theorem move (key : Key) (item : Item) :
    Gains [key.name] before (before.remove key.name ++ [(key, item)]) := by
  have names : (before.remove key.name ++ [(key, item)]).names =
      before.names.filter (· ≠ key.name) ++ [key.name] := by
    rw [Entries.names_append, Entries.names_remove]
    rfl
  constructor
  · intro name
    rw [names, List.mem_append, List.mem_filter, List.mem_singleton]
    by_cases same : name = key.name
    · simp [same]
    · simp [same]
  · intro distinct
    rw [names, List.nodup_append]
    refine ⟨distinct.filter _, List.nodup_singleton _, fun first member second last => ?_⟩
    rw [List.mem_singleton.mp last]
    simpa using (List.mem_filter.mp member).2

end Gains

/-- Entering a table along a path adds the first name of the path. -/
theorem gains_enter {byDots isDotted : Bool} {change : Bool → Entries → Option Entries} {key : Key}
    {path : List Key} {before after : Entries}
    (entered : enter byDots change (key :: path) isDotted before = some after) :
    Gains [key.name] before after := by
  rw [enter] at entered
  split at entered
  · next free =>
      obtain ⟨inner, -, made⟩ := Option.bind_eq_some_iff.mp entered
      cases made
      exact .append free _
  · next form inner found =>
      split at entered
      · cases entered
      · split at entered
        · cases entered
        · obtain ⟨changed, -, made⟩ := Option.bind_eq_some_iff.mp entered
          cases made
          exact .replace found _
      · obtain ⟨changed, -, made⟩ := Option.bind_eq_some_iff.mp entered
        cases made
        exact .replace found _
      · obtain ⟨changed, -, made⟩ := Option.bind_eq_some_iff.mp entered
        cases made
        exact .replace found _
  · next span earlier latest found =>
      obtain ⟨changed, -, made⟩ := Option.bind_eq_some_iff.mp entered
      cases made
      exact .replace found _
  · cases entered

/-- Opening a table adds its name. -/
theorem gains_openTable {header : Header} {assignments : List Assignment} {before after : Entries}
    (opened : openTable header assignments before = some after) :
    Gains [header.key.name] before after := by
  rw [openTable] at opened
  split at opened
  · next free =>
      obtain ⟨inner, -, made⟩ := Option.bind_eq_some_iff.mp opened
      cases made
      exact .append free _
  · next whole earlier latest found =>
      split at opened
      · obtain ⟨inner, -, made⟩ := Option.bind_eq_some_iff.mp opened
        cases made
        exact .replace found _
      · cases opened
  · next inner found =>
      split at opened
      · cases opened
      · obtain ⟨filled, -, made⟩ := Option.bind_eq_some_iff.mp opened
        cases made
        exact .move _ _
  · cases opened

/-- The name of the first part of a dotted key. -/
def leadingName (path : List Key) (key : Key) : Text :=
  (path.head?.getD key).name

/-- An assignment brings at most its leading name. -/
theorem gains_assign {assignment : Assignment} {before after : Entries}
    (assigned : assign before assignment = some after) :
    Gains [leadingName assignment.path assignment.key] before after := by
  rw [assign] at assigned
  cases path : assignment.path with
  | nil =>
      rw [path, enter] at assigned
      split at assigned
      · cases assigned
      · split at assigned
        · cases assigned
        · next free =>
            cases assigned
            exact .append free _
  | cons first rest =>
      rw [path] at assigned
      exact gains_enter assigned

/-- Assignments bring at most their leading names. -/
theorem gains_assignAll {assignments : List Assignment} {before after : Entries}
    (assigned : assignAll before assignments = some after) :
    Gains (assignments.map fun a => leadingName a.path a.key) before after := by
  induction assignments generalizing before with
  | nil =>
      cases assigned
      exact .refl _
  | cons assignment assignments ih =>
      obtain ⟨next, first, rest⟩ := Option.bind_eq_some_iff.mp assigned
      exact (gains_assign first).trans (ih rest)

/-- Sections bring at most the leading names of their headers. -/
theorem gains_addSections {added : List (Header × List Assignment)} {before after : Entries}
    (run : addSections before added = some after) :
    Gains (added.map fun s => leadingName s.1.path s.1.key) before after := by
  induction added generalizing before with
  | nil =>
      cases run
      exact .refl _
  | cons first added ih =>
      obtain ⟨next, entered, rest⟩ := Option.bind_eq_some_iff.mp run
      obtain ⟨header, assignments⟩ := first
      have opened : Gains [leadingName header.path header.key] before next := by
        cases path : header.path with
        | nil =>
            rw [path, enter] at entered
            exact gains_openTable entered
        | cons key keys =>
            rw [path] at entered
            exact gains_enter entered
      exact opened.trans (ih rest)

/-- The first parts of the assignments before the first header, and of all headers. -/
def leadingNames (statements : List Statement) : List Text :=
  ((sections statements).1.map fun a => leadingName a.path a.key) ++
    (sections statements).2.map fun s => leadingName s.1.path s.1.key

/-- The entries of a document have no names but the leading ones of its statements. -/
theorem gains_ofStatements? {statements : List Statement} {entries : Entries}
    (built : Entries.ofStatements? statements = some entries) :
    Gains (leadingNames statements) [] entries := by
  obtain ⟨first, assigned, rest⟩ := Option.bind_eq_some_iff.mp built
  exact (gains_assignAll assigned).trans (gains_addSections rest)

/-- **Main result**: the names of the top table of a document are the first parts of its headers
and of the assignments before the first header, and no name is there twice. -/
theorem names_of_parse? {document : Text} {entries : Entries}
    (parsed : parse? document = some entries) :
    ∃ statements, readStatements? ((dropMark document).length + 1) (dropMark document) =
        some statements ∧
      (∀ name, name ∈ entries.names ↔ name ∈ leadingNames statements) ∧ entries.names.Nodup := by
  obtain ⟨statements, read, built⟩ := Option.bind_eq_some_iff.mp parsed
  have gains := gains_ofStatements? built
  exact ⟨statements, read, fun name => by simpa [Entries.names] using gains.mem name,
    gains.nodup List.nodup_nil⟩

end Toml

end AssemblyDigest
