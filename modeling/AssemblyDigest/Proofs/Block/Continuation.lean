import AssemblyDigest.Proofs.Block.Depth

/-! # Continuing after a cut

Extraction may stop after any line and go on later. What was filed before the cut stays in front
of what is filed after it and has no influence on it. Outside a block the extractor therefore
treats all further lines like a new one; inside a block the lines that are left of the block are
taken from the front of the further lines, and what remains of them is treated like a new input
(`AssemblyDigest.Block.extract_append`).
-/

namespace AssemblyDigest

namespace Block

namespace Extractor

/-- The extractor that has seen the given lines. -/
def ofLines (lines : List Text) : Extractor :=
  lines.foldl push empty

/-- An extractor that filed further texts before its own, the latest first. -/
def withEarlier (extractor : Extractor) (earlier : List Text) : Extractor where
  capture := extractor.capture
  finished := extractor.finished ++ earlier

/-- A line is taken alike, whatever was finished earlier. -/
theorem push_withEarlier (extractor : Extractor) (earlier : List Text) (line : Text) :
    (extractor.withEarlier earlier).push line = (extractor.push line).withEarlier earlier := by
  obtain ⟨capture, finished⟩ := extractor
  cases capture with
  | none =>
      by_cases opening : opens line = true
      · rw [withEarlier, push_opening opening, push_opening opening]
        rfl
      · have quiet := Bool.eq_false_iff.mpr opening
        rw [withEarlier, push_quiet quiet, push_quiet quiet]
        rfl
  | some capture =>
      by_cases zero : capture.depth + balance line = 0
      · rw [withEarlier, push_closing zero, push_closing zero]
        rfl
      · rw [withEarlier, push_capturing zero, push_capturing zero]
        rfl

/-- Texts that were filed earlier do not influence a run. -/
theorem foldl_push_withEarlier (extractor : Extractor) (earlier more : List Text) :
    more.foldl push (extractor.withEarlier earlier) =
      (more.foldl push extractor).withEarlier earlier := by
  induction more generalizing extractor with
  | nil => rfl
  | cons line more ih => rw [List.foldl_cons, push_withEarlier, ih, List.foldl_cons]

/-- Texts that were finished earlier come first at the end. -/
theorem finish_withEarlier (extractor : Extractor) (earlier : List Text) :
    (extractor.withEarlier earlier).finish = earlier.reverse ++ extractor.finish := by
  obtain ⟨capture, finished⟩ := extractor
  cases capture with
  | none => exact List.reverse_append
  | some capture =>
      change (capture.text :: (finished ++ earlier)).reverse = _
      rw [← List.cons_append, List.reverse_append]
      rfl

/-- An extractor outside a block is a new one with earlier texts. -/
theorem eq_empty_withEarlier {extractor : Extractor} (outside : extractor.inside = false) :
    extractor = empty.withEarlier extractor.finished := by
  obtain ⟨capture, finished⟩ := extractor
  cases capture with
  | none => rfl
  | some capture => cases outside

/-- Outside of blocks nothing is added at the end. -/
theorem finish_of_outside {extractor : Extractor} (outside : extractor.inside = false) :
    extractor.finish = extractor.finished.reverse := by
  obtain ⟨capture, finished⟩ := extractor
  cases capture with
  | none => rfl
  | some capture => cases outside

/-- Outside of blocks further lines are cut up as if they stood alone. -/
theorem finish_foldl_push_of_outside {extractor : Extractor} (outside : extractor.inside = false)
    (more : List Text) :
    (more.foldl push extractor).finish = extractor.finished.reverse ++ extract more := by
  rw [eq_empty_withEarlier outside, foldl_push_withEarlier, finish_withEarlier]
  rfl

end Extractor

/-- The lines that are left of a block of some depth, with the lines after the block. The block
ends with the first line that closes it, or else with the input. -/
inductive Remainder (depth : Int) : List Text → List Text → Prop
  | closed {body : List Text} (closes : Closes depth body) (rest : List Text) :
      Remainder depth body rest
  | unterminated {body : List Text} (stays : StaysOpen depth body) : Remainder depth body []

/-- Further lines always divide into what is left of the open block and what follows it. -/
theorem exists_remainder (depth : Int) (lines : List Text) :
    ∃ body rest, lines = body ++ rest ∧ Remainder depth body rest := by
  rcases closes_or_staysOpen depth lines with ⟨body, rest, split, closes⟩ | stays
  · exact ⟨body, rest, split, .closed closes rest⟩
  · exact ⟨lines, [], (List.append_nil lines).symm, .unterminated stays⟩

namespace Extractor

/-- Inside a block, the lines that are left of it complete its text. -/
theorem finish_foldl_push_of_remainder {capture : Capture} {body rest : List Text}
    (remainder : Remainder capture.depth body rest) (finished : List Text) :
    ((body ++ rest).foldl push ⟨some capture, finished⟩).finish =
      finished.reverse ++ Text.joinLines (capture.lines ++ body) :: extract rest := by
  rw [List.foldl_append]
  cases remainder with
  | closed closes rest =>
      rw [foldl_push_of_closes closes, finish_foldl_push_of_outside rfl, List.reverse_cons,
        List.append_assoc, List.singleton_append]
  | unterminated stays =>
      rw [foldl_push_of_staysOpen stays, List.foldl_nil]
      change ((body.foldl Capture.push capture).text :: finished).reverse = _
      rw [Capture.text, Capture.lines_foldl_push, List.reverse_cons]
      rfl

/-- What was filed before the cut is the beginning of every result. -/
theorem isPrefix_finish_foldl_push (extractor : Extractor) (more : List Text) :
    extractor.finished.reverse <+: (more.foldl push extractor).finish := by
  obtain ⟨capture, finished⟩ := extractor
  cases capture with
  | none =>
      rw [finish_foldl_push_of_outside rfl]
      exact List.prefix_append _ _
  | some capture =>
      obtain ⟨body, rest, rfl, remainder⟩ := exists_remainder capture.depth more
      rw [finish_foldl_push_of_remainder remainder]
      exact List.prefix_append _ _

end Extractor

/-- **The input may be cut anywhere.** Outside a block, the texts of the lines before and after a
cut are extracted independently. Inside a block, the lines that are left of it complete its text,
and the lines after it are extracted independently. In either case the texts filed before the cut
remain. -/
theorem extract_append (lines more : List Text) :
    ((Extractor.ofLines lines).inside = false →
      extract (lines ++ more) = extract lines ++ extract more ∧
      more.foldl Extractor.push (Extractor.ofLines lines) =
        (Extractor.ofLines more).withEarlier (Extractor.ofLines lines).finished) ∧
    ((Extractor.ofLines lines).inside = true →
      (∃ body rest, more = body ++ rest ∧
        Remainder (Extractor.ofLines lines).depth body rest) ∧
      ∀ body rest, more = body ++ rest → Remainder (Extractor.ofLines lines).depth body rest →
        extract (lines ++ more) = (Extractor.ofLines lines).finished.reverse ++
          Text.joinLines ((Extractor.ofLines lines).captured ++ body) :: extract rest) ∧
    (Extractor.ofLines lines).finished.reverse <+: extract (lines ++ more) := by
  have resumed : extract (lines ++ more) =
      (more.foldl Extractor.push (Extractor.ofLines lines)).finish := by
    rw [extract, List.foldl_append, Extractor.ofLines]
  rw [resumed]
  refine ⟨fun outside => ⟨?_, ?_⟩, fun inside => ⟨exists_remainder _ _, ?_⟩,
    Extractor.isPrefix_finish_foldl_push _ _⟩
  · rw [Extractor.finish_foldl_push_of_outside outside, ← Extractor.finish_of_outside outside]
    rfl
  · rw [Extractor.eq_empty_withEarlier outside]
    exact Extractor.foldl_push_withEarlier _ _ _
  · generalize Extractor.ofLines lines = extractor at inside ⊢
    obtain ⟨capture, finished⟩ := extractor
    cases capture with
    | none => cases inside
    | some capture =>
        intro body rest split remainder
        subst split
        exact Extractor.finish_foldl_push_of_remainder remainder finished

/-- Lines that end inside a block with two open braces. -/
def openLines : List Text :=
  [keyword ++ ['{', '}'], ['{']]

/-- Lines that close two open braces, and then a block that stays open. -/
def closingLines : List Text :=
  [['}'], ['}'], ['x'], keyword ++ ['{']]

/-- Further lines close a block that was left open, and lines after it are cut up by
themselves. -/
theorem extract_append_openLines :
    (Extractor.ofLines openLines).inside = true ∧
      Remainder (Extractor.ofLines openLines).depth [['}'], ['}']] [['x'], keyword ++ ['{']] ∧
      extract (openLines ++ closingLines) =
        Text.joinLines (openLines ++ [['}'], ['}']]) :: extract [['x'], keyword ++ ['{']] ∧
      (Extractor.ofLines (openLines ++ [['}'], ['}']])).inside = false ∧
      extract ((openLines ++ [['}'], ['}']]) ++ openLines) =
        extract (openLines ++ [['}'], ['}']]) ++ extract openLines := by
  have inside : (Extractor.ofLines openLines).inside = true := rfl
  have outside : (Extractor.ofLines (openLines ++ [['}'], ['}']])).inside = false := rfl
  have remainder : Remainder (Extractor.ofLines openLines).depth [['}'], ['}']]
      [['x'], keyword ++ ['{']] := by
    apply Remainder.closed
    apply Closes.cons (by decide)
    exact Closes.single (by decide)
  have completed := (extract_append openLines closingLines).2.1 inside
  have independent := (extract_append (openLines ++ [['}'], ['}']]) openLines).1 outside
  exact ⟨inside, remainder, completed.2 _ _ rfl remainder, outside, independent.1⟩

end Block

end AssemblyDigest
