import AssemblyDigest.Proofs.Block.Division
import AssemblyDigest.Proofs.Text.Layout

/-! # Blocks in the text of a source

Extraction reads a text line by line. How the lines end is of no importance, and every text is
made of lines with their endings in one way only (`AssemblyDigest.Block.extractText_layout`). A
*placement* shows snippets in a text: each begins where a line begins and ends where a line ends,
and between two of them stands at least a line feed. The snippets that are extracted from a text
have a placement in it, up to the carriage returns before line feeds
(`AssemblyDigest.Block.exists_placement`).
-/

namespace AssemblyDigest

namespace Text

/-- A text in which each line feed has lost the carriage return directly before it. -/
def withoutReturns : Text → Text
  | [] => []
  | '\r' :: '\n' :: rest => '\n' :: withoutReturns rest
  | char :: rest => char :: withoutReturns rest

theorem withoutReturns_feed (rest : Text) :
    withoutReturns ('\n' :: rest) = '\n' :: withoutReturns rest := rfl

/-- A line begins at the end of a text. -/
def StartsLine (text : Text) : Prop :=
  text = [] ∨ text.getLast? = some '\n'

theorem startsLine_ended (lines : List Text) : StartsLine (ended lines) := by
  by_cases empty : lines = []
  · exact Or.inl (by rw [empty]; rfl)
  · rw [← joinLines_append_feed empty]
    exact Or.inr List.getLast?_concat

theorem ended_consFirst (char : Char) {lines : List Text} (nonempty : lines ≠ []) :
    ended (consFirst char lines) = char :: ended lines := by
  cases lines with
  | nil => exact (nonempty rfl).elim
  | cons line more => rw [consFirst, ended_cons, ended_cons, List.cons_append]

/-- Only the empty text has no lines. -/
theorem eq_nil_of_lines_eq_nil {text : Text} (noLines : lines text = []) : text = [] := by
  obtain ⟨⟨ended, last⟩, rfl⟩ := Layout.exists_text text
  rw [lines_layout, Layout.lines, List.append_eq_nil_iff, List.map_eq_nil_iff] at noLines
  obtain ⟨rfl, noLast⟩ := noLines
  cases last with
  | none => rfl
  | some last => cases noLast

/-- Up to the carriage returns before line feeds, a text is made of its lines, each ended with a
line feed, which may be missing after the last. -/
theorem withoutReturns_eq (text : Text) :
    withoutReturns text = ended (lines text) ∨
      withoutReturns text ++ ['\n'] = ended (lines text) := by
  fun_induction lines text with
  | case1 => exact Or.inl rfl
  | case2 rest ih =>
      rw [withoutReturns_feed, ended_cons]
      exact ih.imp (congrArg ('\n' :: ·)) (congrArg ('\n' :: ·))
  | case3 rest ih =>
      rw [withoutReturns, ended_cons]
      exact ih.imp (congrArg ('\n' :: ·)) (congrArg ('\n' :: ·))
  | case4 char rest noFeed noBreak ih =>
      rw [withoutReturns]
      · by_cases noLines : lines rest = []
        · rw [eq_nil_of_lines_eq_nil noLines]
          exact Or.inr rfl
        · rw [ended_consFirst char noLines]
          exact ih.imp (congrArg (char :: ·)) (congrArg (char :: ·))
      · exact noBreak

end Text

namespace Block

/-- A snippet in a text and what stands between it and the next one. -/
structure Excerpt where
  snippet : Text
  gap : Text

/-- The snippet and what stands after it. -/
def Excerpt.text (excerpt : Excerpt) : Text :=
  excerpt.snippet ++ excerpt.gap

/-- Snippets in a text, each at its place: before each of them a line begins, after each of them a
line or the text ends, and no two of them touch. -/
structure Placement (text : Text) where
  lead : Text
  excerpts : List Excerpt
  join : lead ++ excerpts.flatMap Excerpt.text = text
  lineStart : ∀ earlier, earlier <+: excerpts → earlier ≠ excerpts →
    Text.StartsLine (lead ++ earlier.flatMap Excerpt.text)
  lineEnd : ∀ excerpt ∈ excerpts, excerpt.gap = [] ∨ excerpt.gap.head? = some '\n'
  apart : ∀ excerpt ∈ excerpts.dropLast, excerpt.gap ≠ []

namespace Placement

/-- The snippets that are placed, in order. -/
def snippets {text : Text} (placement : Placement text) : List Text :=
  placement.excerpts.map Excerpt.snippet

/-- If line feeds stand after all snippets, one at the end of the text may be left out. -/
theorem exists_dropFeed {text whole : Text} (longer : text ++ ['\n'] = whole)
    (placement : Placement whole) (followed : ∀ excerpt ∈ placement.excerpts, excerpt.gap ≠ []) :
    ∃ shorter : Placement text, shorter.snippets = placement.snippets := by
  subst longer
  obtain ⟨lead, excerpts, join, lineStart, lineEnd, apart⟩ := placement
  change ∀ excerpt ∈ excerpts, excerpt.gap ≠ [] at followed
  by_cases empty : excerpts = []
  · subst empty
    exact ⟨⟨text, [], by simp, by simp, by simp, by simp⟩, rfl⟩
  · obtain ⟨init, ⟨snippet, gap⟩, rfl⟩ : ∃ init last, excerpts = init ++ [last] :=
      ⟨_, _, (List.dropLast_concat_getLast empty).symm⟩
    have present : gap ≠ [] := followed _ (List.mem_append_right _ (List.mem_singleton_self _))
    obtain ⟨shorter, last, rfl⟩ : ∃ shorter last, gap = shorter ++ [last] :=
      ⟨_, _, (List.dropLast_concat_getLast present).symm⟩
    have joined : (lead ++ init.flatMap Excerpt.text ++ (snippet ++ shorter)) ++ [last] =
        text ++ ['\n'] := by
      simpa [Excerpt.text] using join
    obtain ⟨kept, -⟩ := List.append_inj' joined rfl
    refine ⟨⟨lead, init ++ [⟨snippet, shorter⟩], ?_, ?_, ?_, ?_⟩, ?_⟩
    · simpa [Excerpt.text] using kept
    · intro earlier begins different
      rcases List.prefix_concat_iff.mp begins with same | within
      · exact (different same).elim
      · apply lineStart earlier (within.trans (List.prefix_append _ _))
        rintro rfl
        exact absurd within.length_le (by simp)
    · intro excerpt member
      rcases List.mem_append.mp member with inside | isLast
      · exact lineEnd excerpt (List.mem_append_left _ inside)
      · obtain rfl := List.mem_singleton.mp isLast
        have ends := lineEnd _ (List.mem_append_right _ (List.mem_singleton_self _))
        cases shorter with
        | nil => exact Or.inl rfl
        | cons char more => exact Or.inr (ends.resolve_left (List.cons_ne_nil _ _))
    · simpa using apart
    · simp [snippets]

end Placement

namespace Passage

/-- The block of a passage as a snippet, with the lines of the gap after it. -/
def excerpt (passage : Passage) : Excerpt where
  snippet := passage.text
  gap := '\n' :: Text.ended passage.gap

/-- The excerpt of a passage has the text of its lines. -/
theorem text_excerpt (passage : Passage) : passage.excerpt.text = Text.ended passage.lines := by
  have block := Text.joinLines_append_feed (List.cons_ne_nil passage.opening passage.body)
  rw [lines, Text.ended_append, Passage.block, ← block, List.append_assoc]
  rfl

/-- The excerpts of passages have the text of all their lines. -/
theorem flatMap_excerpt (passages : List Passage) :
    (passages.map excerpt).flatMap Excerpt.text = Text.ended (linesOf passages) := by
  induction passages with
  | nil => rfl
  | cons passage rest ih =>
      rw [List.map_cons, List.flatMap_cons, text_excerpt, ih, ← Text.ended_append]
      rfl

end Passage

/-- The blocks of a division are placed in the text of its lines. -/
def Division.placement {lines : List Text} (division : Division lines) :
    Placement (Text.ended lines) where
  lead := Text.ended division.lead
  excerpts := division.passages.map Passage.excerpt
  join := by rw [Passage.flatMap_excerpt, ← Text.ended_append, division.join]
  lineStart := by
    intro earlier begins _
    rw [List.prefix_iff_eq_take.mp begins, ← List.map_take, Passage.flatMap_excerpt,
      ← Text.ended_append]
    exact Text.startsLine_ended _
  lineEnd := by
    intro excerpt member
    obtain ⟨passage, -, rfl⟩ := List.mem_map.mp member
    exact Or.inr rfl
  apart := by
    intro excerpt member
    obtain ⟨passage, -, rfl⟩ := List.mem_map.mp (List.dropLast_subset _ member)
    exact List.cons_ne_nil _ _

/-- What is placed are the texts of the blocks. -/
theorem Division.snippets_placement {lines : List Text} (division : Division lines) :
    division.placement.snippets = division.texts := by
  rw [Placement.snippets, placement, List.map_map]
  rfl

/-- **Line endings are of no importance.** Extraction from a text depends only on its lines, and
every text is made of lines and their endings in exactly one way. -/
theorem extractText_layout :
    (∀ layout : Text.Layout, extractText layout.text = extract layout.lines) ∧
      ∀ text : Text, ∃! layout : Text.Layout, layout.text = text := by
  refine ⟨fun layout => ?_, Text.existsUnique_layout⟩
  rw [extractText, Text.lines_layout]

/-- **Snippets are pieces of the source.** Up to the carriage returns before line feeds, the
snippets that are extracted from a text stand in it in order and apart from each other, each from
the beginning of a line to the end of a line. -/
theorem exists_placement (text : Text) :
    ∃ placement : Placement (Text.withoutReturns text), placement.snippets = extractText text := by
  obtain ⟨lead, passages, quiet, sequence, join⟩ := exists_sequence (Text.lines text)
  let division : Division (Text.lines text) := ⟨lead, passages, quiet, sequence, join⟩
  have snippets : division.placement.snippets = extractText text :=
    division.snippets_placement.trans division.extract_eq.symm
  rcases Text.withoutReturns_eq text with complete | missing
  · rw [complete]
    exact ⟨division.placement, snippets⟩
  · rw [← snippets]
    apply division.placement.exists_dropFeed missing
    intro excerpt member
    obtain ⟨passage, -, rfl⟩ := List.mem_map.mp member
    exact List.cons_ne_nil _ _

end Block

end AssemblyDigest
