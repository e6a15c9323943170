import AssemblyDigest.Proofs.Block.Depth
import Mathlib.Data.List.TakeWhile

/-! # Dividing lines into gaps and blocks

A *passage* is a block with the gap after it. It is closed if the lines after its opening
line close the depth of one open brace, and unterminated if they stay open up to the end of
the input. A *division* of lines is a gap followed by passages that together are the lines,
each in its place; only the last passage may be unterminated. Every list of lines has
exactly one division, and extraction yields the texts of its blocks
(`AssemblyDigest.Block.extract_eq_texts_of_unique_division`).
-/

namespace AssemblyDigest

namespace Block

/-- Lines among which none opens a block. -/
def Quiet (lines : List Text) : Prop :=
  ∀ line ∈ lines, opens line = false

/-- A block, given by its opening line and the lines after it, with the gap that follows. -/
@[ext] structure Passage where
  opening : Text
  body : List Text
  gap : List Text

namespace Passage

/-- The lines of the block. -/
def block (passage : Passage) : List Text :=
  passage.opening :: passage.body

/-- The lines of the block and of the gap. -/
def lines (passage : Passage) : List Text :=
  passage.block ++ passage.gap

/-- The text of the block. -/
def text (passage : Passage) : Text :=
  Text.joinLines passage.block

/-- The capture of the lines of the block. -/
def capture (passage : Passage) : Capture :=
  passage.body.foldl Capture.push (Capture.start passage.opening)

/-- What is captured of a passage are the lines of its block. -/
theorem lines_capture (passage : Passage) : passage.capture.lines = passage.block := by
  rw [capture, Capture.lines_foldl_push]
  rfl

/-- A block that ends where its depth comes to zero. The opening line counts as one open
brace, whatever braces it holds. -/
structure Closed (passage : Passage) : Prop where
  opens : opens passage.opening = true
  closes : Closes 1 passage.body
  quiet : Quiet passage.gap

/-- A block whose depth does not come to zero before the input ends. -/
structure Unterminated (passage : Passage) : Prop where
  opens : Block.opens passage.opening = true
  staysOpen : StaysOpen 1 passage.body
  last : passage.gap = []

/-- The lines of neighbouring passages. -/
def linesOf (passages : List Passage) : List Text :=
  passages.flatMap lines

@[simp] theorem linesOf_nil : linesOf [] = [] := rfl

theorem linesOf_cons (passage : Passage) (rest : List Passage) :
    linesOf (passage :: rest) =
      passage.opening :: (passage.body ++ (passage.gap ++ linesOf rest)) := by
  simp only [linesOf, List.flatMap_cons, lines, block, List.cons_append, List.append_assoc]

/-- Passages that are closed, except that the last may be unterminated. -/
inductive Sequence : List Passage → Prop
  | nil : Sequence []
  | unterminated {passage : Passage} (unterminated : passage.Unterminated) : Sequence [passage]
  | closed {passage : Passage} {rest : List Passage} (closed : passage.Closed)
      (later : Sequence rest) : Sequence (passage :: rest)

/-- After a gap come no lines, or a line that opens a block. -/
theorem Sequence.linesOf_eq {passages : List Passage} (sequence : Sequence passages) :
    linesOf passages = [] ∨
      ∃ opening rest, linesOf passages = opening :: rest ∧ Block.opens opening = true := by
  cases sequence with
  | nil => exact Or.inl rfl
  | unterminated unterminated =>
      exact Or.inr ⟨_, _, linesOf_cons _ _, unterminated.opens⟩
  | closed closed later => exact Or.inr ⟨_, _, linesOf_cons _ _, closed.opens⟩

end Passage

/-- A division of lines into gaps and blocks. -/
@[ext] structure Division (lines : List Text) where
  lead : List Text
  passages : List Passage
  quiet : Quiet lead
  sequence : Passage.Sequence passages
  join : lead ++ Passage.linesOf passages = lines

/-- The texts of the blocks of a division, in order. -/
def Division.texts {lines : List Text} (division : Division lines) : List Text :=
  division.passages.map fun passage => Text.joinLines passage.block

/-- A gap ends where the next line opens a block or there is none. -/
theorem Quiet.eq_of_append_eq {gap other : List Text} (quiet : Quiet gap) (quietToo : Quiet other)
    {passages others : List Passage} (sequence : Passage.Sequence passages)
    (sequenceToo : Passage.Sequence others)
    (same : gap ++ Passage.linesOf passages = other ++ Passage.linesOf others) :
    gap = other ∧ Passage.linesOf passages = Passage.linesOf others := by
  have atGapEnd : ∀ {gap : List Text} {passages : List Passage}, Quiet gap →
      Passage.Sequence passages →
        (gap ++ Passage.linesOf passages).takeWhile (fun line => !opens line) = gap := by
    intro gap passages quiet sequence
    rw [List.takeWhile_append_of_pos fun line member => by rw [quiet line member]; rfl]
    rcases sequence.linesOf_eq with empty | ⟨opening, rest, starts, opens⟩
    · rw [empty, List.takeWhile_nil, List.append_nil]
    · rw [starts, List.takeWhile_cons_of_neg (by rw [opens]; decide), List.append_nil]
  have gaps : gap = other := by
    rw [← atGapEnd quiet sequence, same, atGapEnd quietToo sequenceToo]
  subst gaps
  exact ⟨rfl, List.append_cancel_left same⟩

/-- The same lines are divided in one way only. The induction is on the passages of one
division; the gap before them is carried along. -/
theorem Passage.Sequence.unique {passages : List Passage} (sequence : Sequence passages) :
    ∀ {others : List Passage} {lead other : List Text}, Sequence others → Quiet lead →
      Quiet other → lead ++ linesOf passages = other ++ linesOf others →
        lead = other ∧ passages = others := by
  induction sequence with
  | nil =>
      intro others lead other sequence quiet quietToo same
      obtain ⟨gaps, empty⟩ := quiet.eq_of_append_eq quietToo .nil sequence same
      cases sequence with
      | nil => exact ⟨gaps, rfl⟩
      | unterminated _ => simp [linesOf_cons] at empty
      | closed _ _ => simp [linesOf_cons] at empty
  | @unterminated passage unterminated =>
      intro others lead other sequence quiet quietToo same
      obtain ⟨gaps, blocks⟩ :=
        quiet.eq_of_append_eq quietToo (.unterminated unterminated) sequence same
      refine ⟨gaps, ?_⟩
      cases sequence with
      | nil => simp [linesOf_cons] at blocks
      | unterminated too =>
          simp only [linesOf_cons, linesOf_nil, unterminated.last, too.last, List.append_nil,
            List.cons.injEq] at blocks
          exact congrArg (· :: [])
            (Passage.ext blocks.1 blocks.2 (unterminated.last.trans too.last.symm))
      | closed closed later =>
          simp only [linesOf_cons, linesOf_nil, unterminated.last, List.append_nil,
            List.cons.injEq] at blocks
          exact (closed.closes.not_staysOpen (blocks.2 ▸ unterminated.staysOpen)).elim
  | @closed passage rest closed later ih =>
      intro others lead other sequence quiet quietToo same
      obtain ⟨gaps, blocks⟩ :=
        quiet.eq_of_append_eq quietToo (.closed closed later) sequence same
      refine ⟨gaps, ?_⟩
      cases sequence with
      | nil => simp [linesOf_cons] at blocks
      | unterminated unterminated =>
          simp only [linesOf_cons, linesOf_nil, unterminated.last, List.append_nil,
            List.cons.injEq] at blocks
          exact (closed.closes.not_staysOpen (blocks.2 ▸ unterminated.staysOpen)).elim
      | closed too laterToo =>
          simp only [linesOf_cons, List.cons.injEq] at blocks
          have bodies := closed.closes.eq_of_append_eq too.closes blocks.2
          rw [bodies] at blocks
          obtain ⟨nextGaps, rests⟩ :=
            ih laterToo closed.quiet too.quiet (List.append_cancel_left blocks.2)
          rw [rests]
          exact congrArg (· :: _) (Passage.ext blocks.1 bodies nextGaps)

/-- Lines can be divided. A closed block leaves fewer lines, which is what the induction
is on. -/
theorem exists_sequence (lines : List Text) :
    ∃ lead passages, Quiet lead ∧ Passage.Sequence passages ∧
      lead ++ Passage.linesOf passages = lines := by
  induction size : lines.length using Nat.strongRecOn generalizing lines with
  | ind size ih =>
      subst size
      let quietLine := fun line => !opens line
      have quiet : Quiet (lines.takeWhile quietLine) := fun line member => by
        simpa [quietLine] using List.mem_takeWhile_imp member
      have join := List.takeWhile_append_dropWhile (p := quietLine) (l := lines)
      cases remaining : lines.dropWhile quietLine with
      | nil =>
          rw [remaining] at join
          exact ⟨_, [], quiet, .nil, join⟩
      | cons opening rest =>
          rw [remaining] at join
          have opening_opens : opens opening = true := by
            have stopped := List.head?_dropWhile_not quietLine lines
            simpa [remaining, quietLine] using stopped
          rcases closes_or_staysOpen 1 rest with ⟨body, after, rfl, closes⟩ | stays
          · have fewer : after.length < lines.length := by
              rw [← join]
              simp only [List.length_append, List.length_cons]
              omega
            obtain ⟨gap, passages, gapQuiet, sequence, joined⟩ := ih _ fewer after rfl
            refine ⟨_, ⟨opening, body, gap⟩ :: passages, quiet,
              .closed ⟨opening_opens, closes, gapQuiet⟩ sequence, ?_⟩
            rw [Passage.linesOf_cons, joined, join]
          · refine ⟨_, [⟨opening, rest, []⟩], quiet,
              .unterminated ⟨opening_opens, stays, rfl⟩, ?_⟩
            rw [Passage.linesOf_cons, Passage.linesOf_nil, List.append_nil, List.append_nil, join]

namespace Extractor

/-- Lines that open nothing leave an extractor outside a block. -/
theorem foldl_push_of_quiet {gap : List Text} (quiet : Quiet gap) (finished : List Text) :
    gap.foldl push ⟨none, finished⟩ = ⟨none, finished⟩ := by
  induction gap with
  | nil => rfl
  | cons line gap ih =>
      rw [List.foldl_cons, push_quiet (quiet line List.mem_cons_self),
        ih fun later member => quiet later (List.mem_cons_of_mem _ member)]

/-- A closed passage files its block. -/
theorem foldl_push_of_closed {passage : Passage} (closed : passage.Closed)
    (finished : List Text) :
    passage.lines.foldl push ⟨none, finished⟩ =
      ⟨none, Text.joinLines passage.block :: finished⟩ := by
  rw [Passage.lines, List.foldl_append, Passage.block, List.foldl_cons,
    push_opening closed.opens, foldl_push_of_closes closed.closes,
    foldl_push_of_quiet closed.quiet]
  rfl

/-- The lines of a block without an end leave it open. -/
theorem foldl_push_of_unterminated {passage : Passage} (unterminated : passage.Unterminated)
    (finished : List Text) :
    passage.lines.foldl push ⟨none, finished⟩ = ⟨some passage.capture, finished⟩ := by
  have stays : StaysOpen (Capture.start passage.opening).depth passage.body :=
    unterminated.staysOpen
  rw [Passage.lines, unterminated.last, List.append_nil, Passage.block, List.foldl_cons,
    push_opening unterminated.opens, foldl_push_of_staysOpen stays]
  rfl

/-- After passages in sequence, the closed ones have been filed in order, and the unterminated
one is being captured if there is one. -/
theorem exists_filed_of_sequence {passages : List Passage} (sequence : Passage.Sequence passages)
    (finished : List Text) :
    ∃ filed : List Passage, ∃ flushed : Option Passage, passages = filed ++ flushed.toList ∧
      (∀ passage ∈ filed, passage.Closed) ∧ (∀ passage ∈ flushed, passage.Unterminated) ∧
      (Passage.linesOf passages).foldl push ⟨none, finished⟩ =
        ⟨flushed.map Passage.capture, (filed.map Passage.text).reverse ++ finished⟩ := by
  induction sequence generalizing finished with
  | nil => exact ⟨[], none, rfl, by simp, by simp, rfl⟩
  | @unterminated passage unterminated =>
      refine ⟨[], some passage, rfl, by simp, by simpa using unterminated, ?_⟩
      rw [Passage.linesOf, List.flatMap_singleton, foldl_push_of_unterminated unterminated]
      rfl
  | @closed passage rest closed later ih =>
      obtain ⟨filed, flushed, split, allClosed, ending, run⟩ := ih (passage.text :: finished)
      refine ⟨passage :: filed, flushed, by rw [split, List.cons_append], ?_, ending, ?_⟩
      · intro other member
        rcases List.mem_cons.mp member with rfl | member
        · exact closed
        · exact allClosed other member
      · rw [Passage.linesOf, List.flatMap_cons, List.foldl_append, foldl_push_of_closed closed,
          ← Passage.linesOf]
        refine run.trans ?_
        rw [List.map_cons, List.reverse_cons, List.append_assoc, List.singleton_append]

/-- The end of the input files the unterminated passage after the closed ones. -/
theorem finish_foldl_push_of_sequence {passages : List Passage}
    (sequence : Passage.Sequence passages) (finished : List Text) :
    ((Passage.linesOf passages).foldl push ⟨none, finished⟩).finish =
      finished.reverse ++ passages.map Passage.text := by
  obtain ⟨filed, flushed, rfl, -, -, run⟩ := exists_filed_of_sequence sequence finished
  rw [run]
  cases flushed with
  | none => simp [finish]
  | some passage => simp [finish, Capture.text, Passage.lines_capture, Passage.text]

end Extractor

/-- Extraction yields the texts of the blocks of any division. -/
theorem Division.extract_eq {lines : List Text} (division : Division lines) :
    extract lines = division.texts := by
  obtain ⟨lead, passages, quiet, sequence, rfl⟩ := division
  rw [extract, List.foldl_append, Extractor.empty, Extractor.foldl_push_of_quiet quiet,
    Extractor.finish_foldl_push_of_sequence sequence]
  rfl

/-- Two divisions of the same lines are the same. -/
theorem Division.unique {lines : List Text} (division other : Division lines) :
    other = division := by
  obtain ⟨leads, passages⟩ := other.sequence.unique division.sequence other.quiet division.quiet
    (other.join.trans division.join.symm)
  exact Division.ext leads passages

/-- **Extraction is division.** Every list of lines has exactly one division into gaps and
blocks, and extraction yields the texts of its blocks in order. -/
theorem extract_eq_texts_of_unique_division (lines : List Text) :
    ∃ division : Division lines,
      (∀ other : Division lines, other = division) ∧ extract lines = division.texts := by
  obtain ⟨lead, passages, quiet, sequence, join⟩ := exists_sequence lines
  let division : Division lines := ⟨lead, passages, quiet, sequence, join⟩
  exact ⟨division, division.unique, division.extract_eq⟩

-- A depth below zero keeps a block open, the braces of an opening line do not count, and the
-- line after the end of a block may open the next one.
example :
    let first := [keyword ++ ['{'], ['}', '}'], ['{']]
    let second := [keyword ++ ['{', '}'], ['x'], ['}']]
    extract (first ++ second) = [Text.joinLines first, Text.joinLines second] := by
  decide

end Block

end AssemblyDigest
