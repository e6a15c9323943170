import AssemblyDigest.Proofs.Block.Continuation
import AssemblyDigest.Proofs.Block.Division

/-! # Braces in the text of a block

The braces in the text of a block are those of its lines, since the line feeds between the lines
add none. The opening line counts as one open brace for the depth whatever braces it holds, and
only the other lines count with their own braces. The balance of the whole text is therefore off
from that of its opening line by the change of depth since then: by minus one if the block was
closed, and by the depth that is left, less one, if the input ended inside it
(`AssemblyDigest.Block.balance_of_texts`).
-/

namespace AssemblyDigest

namespace Block

theorem balance_append (first second : Text) :
    balance (first ++ second) = balance first + balance second := by
  simp only [balance, List.count_append]
  omega

theorem balance_cons_feed (text : Text) : balance ('\n' :: text) = balance text := by
  rw [← List.singleton_append, balance_append]
  exact Int.zero_add _

theorem depthAfter_eq_add (depth : Int) (lines : List Text) :
    depthAfter depth lines = depth + depthAfter 0 lines := by
  induction lines generalizing depth with
  | nil => exact (Int.add_zero depth).symm
  | cons line lines ih =>
      rw [depthAfter_cons, depthAfter_cons, ih, ih (0 + balance line), Int.zero_add,
        Int.add_assoc]

/-- The balance of a text is that of all its lines together. -/
theorem balance_joinLines (lines : List Text) :
    balance (Text.joinLines lines) = depthAfter 0 lines := by
  induction lines with
  | nil => rfl
  | cons line rest ih =>
      rw [depthAfter_cons, Int.zero_add]
      cases rest with
      | nil => rfl
      | cons next more =>
          rw [Text.joinLines, balance_append, balance_cons_feed, ih,
            depthAfter_eq_add (balance line)]

namespace Passage

/-- The balance of a block and the depth after it change alike. -/
theorem balance_text (passage : Passage) :
    balance passage.text = balance passage.opening - 1 + depthAfter 1 passage.body := by
  rw [text, balance_joinLines, block, depthAfter_cons, depthAfter_eq_add,
    depthAfter_eq_add 1 passage.body]
  omega

/-- A closed block has the balance of its opening line, less the one brace that its end takes. -/
theorem Closed.balance_text {passage : Passage} (closed : passage.Closed) :
    balance passage.text = balance passage.opening - 1 := by
  rw [passage.balance_text, closed.closes.zero, Int.add_zero]

/-- The depth at the end of a block is that of its body after its opening line. -/
theorem depth_capture (passage : Passage) :
    passage.capture.depth = depthAfter 1 passage.body := by
  rw [capture, Capture.depth_foldl_push, Capture.depth_start]

theorem Unterminated.depth_ne_zero {passage : Passage} (unterminated : passage.Unterminated) :
    passage.capture.depth ≠ 0 := by
  rw [depth_capture]
  by_cases empty : passage.body = []
  · rw [empty, depthAfter_nil]
    exact Int.one_ne_zero
  · exact unterminated.staysOpen passage.body [] (List.append_nil _) empty

end Passage

/-- **Braces in the text of a block.** The blocks of the only division of some lines are filed
because their depth came to zero, except for one that the end of the input may cut off. The
balance of a text that was filed is that of its opening line less one, so its braces are balanced
exactly if the opening line has one opening brace too many. The balance of the text that was cut
off is larger by the depth that was left, which is not zero. -/
theorem balance_of_texts (lines : List Text) :
    ∃ division : Division lines, (∀ other : Division lines, other = division) ∧
      ∃ filed : List Passage, ∃ flushed : Option Passage,
        division.passages = filed ++ flushed.toList ∧
        extract lines = (filed ++ flushed.toList).map Passage.text ∧
        (Extractor.ofLines lines).finished.reverse = filed.map Passage.text ∧
        (∀ passage ∈ filed, balance passage.text = balance passage.opening - 1 ∧
          (passage.text.count '{' = passage.text.count '}' ↔
            passage.opening.count '{' = passage.opening.count '}' + 1)) ∧
        ∀ passage ∈ flushed, (Extractor.ofLines lines).captured = passage.block ∧
          balance passage.text =
            balance passage.opening - 1 + (Extractor.ofLines lines).depth ∧
          (Extractor.ofLines lines).depth ≠ 0 := by
  obtain ⟨lead, passages, quiet, sequence, join⟩ := exists_sequence lines
  let division : Division lines := ⟨lead, passages, quiet, sequence, join⟩
  obtain ⟨filed, flushed, split, closed, unterminated, run⟩ :=
    Extractor.exists_filed_of_sequence sequence []
  have state : Extractor.ofLines lines =
      ⟨flushed.map Passage.capture, (filed.map Passage.text).reverse⟩ := by
    rw [Extractor.ofLines, ← join, List.foldl_append, Extractor.empty,
      Extractor.foldl_push_of_quiet quiet, run, List.append_nil]
  refine ⟨division, division.unique, filed, flushed, split, ?_, ?_, ?_, ?_⟩
  · rw [division.extract_eq, ← split]
    rfl
  · rw [state, List.reverse_reverse]
  · intro passage member
    have balanced := (closed passage member).balance_text
    refine ⟨balanced, ?_⟩
    unfold balance at balanced
    omega
  · intro passage member
    obtain rfl := Option.mem_def.mp member
    rw [state]
    refine ⟨passage.lines_capture, ?_, (unterminated passage member).depth_ne_zero⟩
    rw [passage.balance_text, ← passage.depth_capture]
    rfl

-- An opening line that closes its own brace leaves one closing brace too many in the text.
example : (extract [keyword ++ ['{', '}'], ['x'], ['}']]).map balance = [-1] := by decide

end Block

end AssemblyDigest
