import AssemblyDigest.Proofs.Block.Division
import AssemblyDigest.Proofs.Text.Lines

/-! # Extracting what was extracted

If the gaps between the blocks of a division are left out, the blocks remain a division of the
lines that are left: each still opens and closes at the same lines, and an unterminated block
is still the last. So the texts of the blocks, glued together, yield the same texts again
(`AssemblyDigest.Block.extractText_joinLines_extractText`), provided that no line ends with a
carriage return, which the line feed after it would take away.
-/

namespace AssemblyDigest

namespace Block

namespace Passage

/-- A passage without its gap. -/
def alone (passage : Passage) : Passage :=
  { passage with gap := [] }

theorem block_ne_nil (passage : Passage) : passage.block ≠ [] := List.cons_ne_nil _ _

/-- Passages without what follows their blocks have only the lines of the blocks. -/
theorem linesOf_map_alone (passages : List Passage) :
    linesOf (passages.map alone) = passages.flatMap block := by
  induction passages with
  | nil => rfl
  | cons passage rest ih =>
      rw [List.map_cons, linesOf_cons, ih, List.flatMap_cons]
      rfl

/-- Blocks follow each other as well without their gaps. -/
theorem Sequence.map_alone {passages : List Passage} (sequence : Sequence passages) :
    Sequence (passages.map alone) := by
  induction sequence with
  | nil => exact .nil
  | unterminated unterminated =>
      exact .unterminated ⟨unterminated.opens, unterminated.staysOpen, rfl⟩
  | closed closed later ih =>
      have quiet : Quiet [] := fun line member => (List.not_mem_nil member).elim
      exact .closed ⟨closed.opens, closed.closes, quiet⟩ ih

/-- The lines of blocks are lines of their passages. -/
theorem mem_linesOf_of_mem_block {passages : List Passage} {line : Text}
    (member : line ∈ passages.flatMap block) : line ∈ linesOf passages := by
  obtain ⟨passage, listed, within⟩ := List.mem_flatMap.mp member
  exact List.mem_flatMap.mpr ⟨passage, listed, List.mem_append_left _ within⟩

theorem ended_texts (passages : List Passage) :
    Text.ended (passages.map fun passage => Text.joinLines passage.block) =
      Text.ended (passages.flatMap block) := by
  induction passages with
  | nil => rfl
  | cons passage rest ih =>
      have first := Text.joinLines_append_feed passage.block_ne_nil
      rw [List.map_cons, Text.ended_cons, ih, List.flatMap_cons, Text.ended_append, ← first,
        List.append_assoc, List.singleton_append]

end Passage

/-- Extracting from the lines of the blocks alone yields the texts of the blocks. -/
theorem extract_blocks {passages : List Passage} (sequence : Passage.Sequence passages) :
    extract (passages.flatMap Passage.block) =
      passages.map fun passage => Text.joinLines passage.block := by
  let division : Division (passages.flatMap Passage.block) :=
    { lead := []
      passages := passages.map Passage.alone
      quiet := fun line member => (List.not_mem_nil member).elim
      sequence := sequence.map_alone
      join := Passage.linesOf_map_alone passages }
  have texts : division.texts = passages.map fun passage => Text.joinLines passage.block := by
    change (passages.map Passage.alone).map _ = _
    rw [List.map_map]
    rfl
  rw [division.extract_eq, texts]

/-- **Extraction keeps what it yields.** The texts of the blocks of a text, glued together and
ended with a line feed, yield the same texts. -/
theorem extractText_joinLines_extractText (text : Text)
    (noReturn : ∀ line ∈ Text.lines text, line.getLast? ≠ some '\r') :
    extractText (Text.joinLines (extractText text) ++ ['\n']) = extractText text := by
  obtain ⟨lead, passages, quiet, sequence, join⟩ := exists_sequence (Text.lines text)
  let division : Division (Text.lines text) := ⟨lead, passages, quiet, sequence, join⟩
  have texts : extractText text = passages.map fun passage => Text.joinLines passage.block :=
    division.extract_eq
  have plain : ∀ line ∈ passages.flatMap Passage.block, Text.PlainLine line := by
    intro line member
    have within : line ∈ Text.lines text := by
      rw [← join]
      exact List.mem_append_right _ (Passage.mem_linesOf_of_mem_block member)
    exact ⟨Text.feed_not_mem_of_mem_lines text line within, noReturn line within⟩
  rw [texts]
  by_cases none : passages = []
  · subst none
    rfl
  · have some : passages.map (fun passage => Text.joinLines passage.block) ≠ [] := by
      intro empty
      exact none (List.map_eq_nil_iff.mp empty)
    rw [Text.joinLines_append_feed some, Passage.ended_texts, extractText,
      Text.lines_ended plain, extract_blocks sequence]

/-- A text with a block that holds a blank line, a gap, and a block that is never closed and
ends with a blank line. -/
def unfinishedText : Text :=
  keyword ++ ['{', '\n', '\n', '}', '\n', 'x', '\n'] ++ keyword ++ ['{', '\n', '{', '\n', '\n']

/-- Two blocks, the second without an end, are found again in their own texts. -/
theorem extractText_of_unfinishedText :
    (∀ line ∈ Text.lines unfinishedText, line.getLast? ≠ some '\r') ∧
      extractText unfinishedText =
        [keyword ++ ['{', '\n', '\n', '}'], keyword ++ ['{', '\n', '{', '\n']] ∧
      extractText (Text.joinLines (extractText unfinishedText) ++ ['\n']) =
        extractText unfinishedText := by
  have noReturn : ∀ line ∈ Text.lines unfinishedText, line.getLast? ≠ some '\r' := by decide
  exact ⟨noReturn, by decide, extractText_joinLines_extractText unfinishedText noReturn⟩

end Block

end AssemblyDigest
