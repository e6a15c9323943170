import AssemblyDigest.Proofs.Path.Below
import AssemblyDigest.Report
import Mathlib.Data.List.Basic
import Mathlib.Data.List.TakeWhile

/-! # Reading Markdown reports back

A Markdown report is read line by line. A heading gives the name of a file, and a block gives
a snippet: the lines from its opening fence, which the language fixes, up to the first line
that is a bare fence. Nothing inside a snippet is escaped, so this needs that no line of a
snippet is a bare fence itself, and that names stay on one line. Then a report is *fenceable*,
and its text gives back the names and snippets of its files
(`AssemblyDigest.Markdown.read_toMarkdown`), whatever else the snippets look like.
-/

namespace AssemblyDigest

namespace Markdown

/-- A part of a Markdown report. -/
inductive Part where
  | heading (name : Text)
  | block (snippet : Text)

/-- Reads a fenced block with the blank line after it, given the lines that open a block. -/
def readBlock? (opener lines : List Text) : Option (Part × List Text) :=
  match opener.isPrefixOf? lines with
  | none => none
  | some inner =>
      match inner.dropWhile (· ≠ fence) with
      | _ :: [] :: rest => some (.block (Text.joinLines (inner.takeWhile (· ≠ fence))), rest)
      | _ => none

/-- Reads a heading or a fenced block with the blank line after it. -/
def readPart? (opener : List Text) : List Text → Option (Part × List Text)
  | ('#' :: '#' :: ' ' :: name) :: [] :: rest => some (.heading name, rest)
  | lines => readBlock? opener lines

theorem length_of_readBlock? {opener lines rest : List Text} {part : Part}
    (reads : readBlock? opener lines = some (part, rest)) : rest.length < lines.length := by
  unfold readBlock? at reads
  split at reads
  · cases reads
  · next inner starts =>
      have begins := List.isPrefixOf?_eq_some_iff_append_eq.mp starts
      split at reads
      · next closing after left =>
          cases reads
          have fewer : (inner.dropWhile (· ≠ fence)).length ≤ inner.length :=
            (List.dropWhile_suffix _).length_le
          rw [left] at fewer
          rw [← begins, List.length_append]
          simp only [List.length_cons] at fewer
          omega
      · cases reads

theorem length_of_readPart? {opener lines rest : List Text} {part : Part}
    (reads : readPart? opener lines = some (part, rest)) : rest.length < lines.length := by
  unfold readPart? at reads
  split at reads
  · cases reads
    simp only [List.length_cons]
    omega
  · exact length_of_readBlock? reads

/-- Reads the parts of a report up to the end of its last line. -/
def readParts (opener lines : List Text) : Option (List Part) :=
  if lines = [[]] then some []
  else
    match _reads : readPart? opener lines with
    | some (part, rest) => (readParts opener rest).map (part :: ·)
    | none => none
termination_by lines.length
decreasing_by exact length_of_readPart? _reads

/-- The snippets before the first heading, and the name and snippets of each file. -/
def group : List Part → List Text × List (Text × List Text)
  | [] => ([], [])
  | .block snippet :: parts => (snippet :: (group parts).1, (group parts).2)
  | .heading name :: parts => ([], (name, (group parts).1) :: (group parts).2)

/-- The lines that open a block of a language. -/
def opener (language : Text) : List Text :=
  Text.splitOn '\n' (fence ++ language)

/-- Reads the names and snippets of the files of a report in a language. -/
def read (language text : Text) : Option (List (Text × List Text)) := do
  let parts ← readParts (opener language) (Text.splitOn '\n' text)
  match group parts with
  | ([], files) => some files
  | _ => none

/-- The lines of a part, apart from those that open a block. -/
def Part.lines (opener : List Text) : Part → List Text
  | .heading name => [('#' :: '#' :: ' ' :: name), []]
  | .block snippet => opener ++ (Text.splitOn '\n' snippet ++ [fence, []])

/-- Parts whose lines can be told from each other. -/
def Part.Plain : Part → Prop
  | .heading name => '\n' ∉ name
  | .block snippet => fence ∉ Text.splitOn '\n' snippet

/-- A block is read up to the end of its lines, if no line of the snippet is a fence. -/
theorem readBlock?_append (opener : List Text) {snippet : Text}
    (plain : fence ∉ Text.splitOn '\n' snippet) (rest : List Text) :
    readBlock? opener ((Part.block snippet).lines opener ++ rest) =
      some (.block snippet, rest) := by
  have inside : ∀ line ∈ Text.splitOn '\n' snippet, decide (line ≠ fence) = true := by
    intro line member
    apply decide_eq_true
    rintro rfl
    exact plain member
  have starts : opener.isPrefixOf? ((Part.block snippet).lines opener ++ rest) =
      some (Text.splitOn '\n' snippet ++ fence :: [] :: rest) := by
    rw [List.isPrefixOf?_eq_some_iff_append_eq, Part.lines]
    simp only [List.append_assoc, List.cons_append, List.nil_append]
  have closes : (Text.splitOn '\n' snippet ++ fence :: [] :: rest).dropWhile (· ≠ fence) =
      fence :: [] :: rest := by
    rw [List.dropWhile_append_of_pos inside, List.dropWhile_cons_of_neg (by simp)]
  have body : (Text.splitOn '\n' snippet ++ fence :: [] :: rest).takeWhile (· ≠ fence) =
      Text.splitOn '\n' snippet := by
    rw [List.takeWhile_append_of_pos inside, List.takeWhile_cons_of_neg (by simp),
      List.append_nil]
  simp only [readBlock?, starts, closes, body, Text.joinLines_splitOn]

/-- The first line of a block is not a heading. -/
theorem exists_opener_cons (language : Text) :
    ∃ line lines, opener language = ('\x60' :: line) :: lines := by
  unfold opener
  cases pieces : Text.splitOn '\n' ('\x60' :: '\x60' :: language) with
  | nil => exact (Text.splitOn_ne_nil _ _ pieces).elim
  | cons piece more =>
      refine ⟨piece, more, ?_⟩
      change Text.splitOn '\n' ('\x60' :: '\x60' :: '\x60' :: language) = _
      rw [Text.splitOn, if_neg (by decide), pieces]
      rfl

/-- A part is read up to the end of its lines. -/
theorem readPart?_append (language : Text) {part : Part} (plain : part.Plain)
    (rest : List Text) :
    readPart? (opener language) (part.lines (opener language) ++ rest) = some (part, rest) := by
  cases part with
  | heading name => rfl
  | block snippet =>
      obtain ⟨line, lines, starts⟩ := exists_opener_cons language
      have reads := readBlock?_append (opener language) plain rest
      rw [Part.lines, starts] at reads ⊢
      exact reads

/-- Where a part is left, the end is not reached. -/
theorem lines_ne_end (language : Text) (part : Part) (rest : List Text) :
    part.lines (opener language) ++ rest ≠ [[]] := by
  cases part with
  | heading name =>
      intro same
      cases same
  | block snippet =>
      obtain ⟨line, lines, starts⟩ := exists_opener_cons language
      rw [Part.lines, starts]
      intro same
      cases same

/-- Parts whose lines can be told from each other are read one after the other. -/
theorem readParts_lines (language : Text) {parts : List Part}
    (plain : ∀ part ∈ parts, part.Plain) :
    readParts (opener language) (parts.flatMap (Part.lines (opener language)) ++ [[]]) =
      some parts := by
  induction parts with
  | nil =>
      rw [readParts]
      rfl
  | cons part parts ih =>
      have reads := readPart?_append language (plain part List.mem_cons_self)
        (parts.flatMap (Part.lines (opener language)) ++ [[]])
      have readRest := ih fun later member => plain later (List.mem_cons_of_mem _ member)
      rw [List.flatMap_cons, List.append_assoc, readParts,
        if_neg (lines_ne_end language part _)]
      split
      · next first rest found =>
          rw [reads] at found
          cases found
          rw [readRest]
          rfl
      · next found =>
          rw [reads] at found
          cases found

end Markdown

namespace ReportEntry

/-- The parts of a file in Markdown. -/
def parts (entry : ReportEntry) : List Markdown.Part :=
  .heading entry.fileName :: entry.snippets.map .block

/-- A file whose name stays on one line and none of whose snippets has a line that is a bare
fence. -/
structure Fenceable (entry : ReportEntry) : Prop where
  name : '\n' ∉ entry.fileName
  snippets : ∀ snippet ∈ entry.snippets, fence ∉ Text.splitOn '\n' snippet

theorem fenceable_iff (entry : ReportEntry) :
    entry.Fenceable ↔ '\n' ∉ entry.fileName ∧
      ∀ snippet ∈ entry.snippets, fence ∉ Text.splitOn '\n' snippet :=
  ⟨fun ⟨name, snippets⟩ => ⟨name, snippets⟩, fun ⟨name, snippets⟩ => ⟨name, snippets⟩⟩

instance (entry : ReportEntry) : Decidable entry.Fenceable :=
  decidable_of_iff _ entry.fenceable_iff.symm

/-- The parts of a fenceable entry are plain. -/
theorem Fenceable.plain {entry : ReportEntry} (fenceable : entry.Fenceable) :
    ∀ part ∈ entry.parts, part.Plain := by
  intro part member
  rcases List.mem_cons.mp member with rfl | block
  · exact fenceable.name
  · obtain ⟨snippet, listed, rfl⟩ := List.mem_map.mp block
    exact fenceable.snippets snippet listed

end ReportEntry

namespace Report

/-- The parts of a report in Markdown. -/
def parts (report : Report) : List Markdown.Part :=
  report.entries.flatMap ReportEntry.parts

/-- A report all of whose files can be told from each other in Markdown. -/
def Fenceable (report : Report) : Prop :=
  ∀ entry ∈ report.entries, entry.Fenceable

instance (report : Report) : Decidable report.Fenceable :=
  inferInstanceAs (Decidable (∀ entry ∈ report.entries, entry.Fenceable))

/-- The names and snippets of the files of a report. -/
def listing (report : Report) : List (Text × List Text) :=
  report.entries.map fun entry => (entry.fileName, entry.snippets)

end Report

namespace Markdown

/-- The text of a part. -/
def Part.text (language : Text) : Part → Text
  | .heading name => '#' :: '#' :: ' ' :: name ++ ['\n', '\n']
  | .block snippet => fencedBlock language snippet

/-- A report in Markdown is the text of its parts. -/
theorem toMarkdown_eq (report : Report) (language : Text) :
    report.toMarkdown language = report.parts.flatMap (Part.text language) := by
  have entries : ∀ entry : ReportEntry,
      entry.toMarkdown language = entry.parts.flatMap (Part.text language) := by
    intro entry
    simp only [ReportEntry.toMarkdown, ReportEntry.parts, List.flatMap_cons, List.flatMap_map,
      Part.text, List.cons_append, List.append_assoc, List.nil_append]
  rw [Report.toMarkdown, Report.parts, List.flatMap_assoc, funext entries]

/-- The lines of a part come before the lines of what follows. -/
theorem splitOn_text_append (language : Text) {part : Part} (plain : part.Plain) (rest : Text) :
    Text.splitOn '\n' (part.text language ++ rest) =
      part.lines (opener language) ++ Text.splitOn '\n' rest := by
  have endsLine : ∀ before after : Text, Text.splitOn '\n' (before ++ '\n' :: after) =
      Text.splitOn '\n' before ++ Text.splitOn '\n' after :=
    Text.splitOn_append_cons '\n'
  cases part with
  | heading name =>
      have noFeed : '\n' ∉ name := plain
      have title : '\n' ∉ '#' :: '#' :: ' ' :: name := by
        simpa using noFeed
      have shape : (Part.heading name).text language ++ rest =
          ('#' :: '#' :: ' ' :: name) ++ '\n' :: ([] ++ '\n' :: rest) := by
        simp [Part.text]
      rw [shape, endsLine, endsLine, Text.splitOn_of_not_mem title]
      rfl
  | block snippet =>
      have shape : (Part.block snippet).text language ++ rest =
          (fence ++ language) ++ '\n' ::
            (snippet ++ '\n' :: (fence ++ '\n' :: ([] ++ '\n' :: rest))) := by
        simp [Part.text, fencedBlock]
      rw [shape, endsLine, endsLine, endsLine, endsLine, ← opener,
        Text.splitOn_of_not_mem (show '\n' ∉ fence by decide), Part.lines]
      simp [Text.splitOn]

/-- The lines of parts are those of each, and an empty one at the end. -/
theorem splitOn_texts (language : Text) {parts : List Part} (plain : ∀ part ∈ parts, part.Plain) :
    Text.splitOn '\n' (parts.flatMap (Part.text language)) =
      parts.flatMap (Part.lines (opener language)) ++ [[]] := by
  induction parts with
  | nil => rfl
  | cons part parts ih =>
      rw [List.flatMap_cons, splitOn_text_append language (plain part List.mem_cons_self),
        ih fun later member => plain later (List.mem_cons_of_mem _ member), List.flatMap_cons,
        List.append_assoc]

/-- Blocks are grouped as the snippets before the next heading. -/
theorem group_blocks (snippets : List Text) (parts : List Part) :
    group (snippets.map .block ++ parts) = (snippets ++ (group parts).1, (group parts).2) := by
  induction snippets with
  | nil => rfl
  | cons snippet snippets ih => rw [List.map_cons, List.cons_append, group, ih, List.cons_append]

/-- The parts of a report are grouped into its listing. -/
theorem group_parts (report : Report) : group report.parts = ([], report.listing) := by
  obtain ⟨entries⟩ := report
  induction entries with
  | nil => rfl
  | cons entry entries ih =>
      have split : (Report.mk (entry :: entries)).parts =
          .heading entry.fileName :: (entry.snippets.map .block ++ (Report.mk entries).parts) :=
        List.flatMap_cons
      rw [split, group, group_blocks, ih, List.append_nil]
      rfl

/-- **Markdown reports can be read back**: from the text of a fenceable report in a language
its names and snippets are read in order. So fenceable reports with the same text have the same
names and snippets. -/
theorem read_toMarkdown (language : Text) :
    (∀ report : Report, report.Fenceable →
      read language (report.toMarkdown language) = some report.listing) ∧
    ∀ first second : Report, first.Fenceable → second.Fenceable →
      first.toMarkdown language = second.toMarkdown language →
        first.listing = second.listing := by
  have reads : ∀ report : Report, report.Fenceable →
      read language (report.toMarkdown language) = some report.listing := by
    intro report fenceable
    have plain : ∀ part ∈ report.parts, part.Plain := by
      intro part member
      obtain ⟨entry, listed, within⟩ := List.mem_flatMap.mp member
      exact (fenceable entry listed).plain part within
    rw [read, toMarkdown_eq, splitOn_texts language plain, readParts_lines language plain,
      Option.bind_eq_bind, Option.bind_some, group_parts]
  refine ⟨reads, ?_⟩
  intro first second fenceable fenceableToo same
  have found := reads first fenceable
  rw [same, reads second fenceableToo] at found
  exact (Option.some.inj found).symm

/-- A report on two files of the same name in a folder, with snippets that are empty or look
like headings and fences. -/
def layeredReport (folder : Text) : Report :=
  let path := folder ++ "/x.sol".toList
  (Report.empty.push path ["## x.sol\n\n```solidity\n\n``` ".toList, []]).push path ["##".toList]

/-- Reports on different folders look the same and are read as the same listing. -/
theorem read_toMarkdown_layeredReport :
    (layeredReport ['a']).Fenceable ∧ (layeredReport ['b']).Fenceable ∧
      (layeredReport ['a']).toMarkdown "solidity".toList =
        (layeredReport ['b']).toMarkdown "solidity".toList ∧
      read "solidity".toList ((layeredReport ['a']).toMarkdown "solidity".toList) =
        some (layeredReport ['a']).listing ∧
      (layeredReport ['a']).listing = (layeredReport ['b']).listing := by
  have fenceable : (layeredReport ['a']).Fenceable := by decide
  have fenceableToo : (layeredReport ['b']).Fenceable := by decide
  obtain ⟨reads, unique⟩ := read_toMarkdown "solidity".toList
  exact ⟨fenceable, fenceableToo, rfl, reads _ fenceable, unique _ _ fenceable fenceableToo rfl⟩

end Markdown

end AssemblyDigest
