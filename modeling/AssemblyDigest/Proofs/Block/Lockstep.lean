import AssemblyDigest.Proofs.Block.Continuation

/-! # Runs in lockstep

What an extractor asks of a line depends on its state: outside a block only whether the line
opens one, inside a block only how its braces balance. An *outline* records where the blocks of
some lines are and follows the lines by these answers alone; extraction copies the lines of its
spans (`AssemblyDigest.Block.extract_eq_map_spans`). Lines that give the same answers to the
questions asked of them therefore have the same outline, and their blocks lie at the same places
(`AssemblyDigest.Block.extract_of_readAlike`). In particular the keyword does not matter inside a
block, and braces do not matter outside a block and on an opening line
(`AssemblyDigest.Block.spans_replace`).
-/

namespace AssemblyDigest

namespace Block

/-- A place of neighbouring lines: the index of the first of them and the index past the last. -/
structure Span where
  first : Nat
  past : Nat
  deriving DecidableEq, Repr

namespace Span

/-- The text of the lines at a place. -/
def text (lines : List Text) (span : Span) : Text :=
  Text.joinLines (lines.extract span.first span.past)

/-- Further lines do not change what stands at a place before them. -/
theorem text_append {lines : List Text} {span : Span} (within : span.past ≤ lines.length)
    (more : List Text) : span.text (lines ++ more) = span.text lines := by
  simp only [text, List.extract]
  by_cases present : span.first ≤ lines.length
  · rw [List.drop_append_of_le_length present, List.take_append_of_le_length]
    rw [List.length_drop]
    omega
  · rw [Nat.sub_eq_zero_of_le (by omega), List.take_zero, List.take_zero]

/-- A span up to the end has all lines from its first one on. -/
theorem text_of_past_eq_length (lines : List Text) (first : Nat) :
    text lines ⟨first, lines.length⟩ = Text.joinLines (lines.drop first) := by
  rw [text, List.extract, List.take_of_length_le (Nat.le_of_eq List.length_drop)]

/-- Places that are not empty, lie within a number of lines and follow each other without
overlap. -/
structure InOrder (spans : List Span) (count : Nat) : Prop where
  nonempty : ∀ span ∈ spans, span.first < span.past
  within : ∀ span ∈ spans, span.past ≤ count
  disjoint : spans.Pairwise fun span later => span.past ≤ later.first

namespace InOrder

theorem nil (count : Nat) : InOrder [] count :=
  ⟨by simp, by simp, List.Pairwise.nil⟩

theorem mono {spans : List Span} {count more : Nat} (inOrder : InOrder spans count)
    (le : count ≤ more) : InOrder spans more where
  nonempty := inOrder.nonempty
  within span member := Nat.le_trans (inOrder.within span member) le
  disjoint := inOrder.disjoint

/-- A place after all others may be added, and its end may be chosen anew. -/
theorem append_singleton {spans : List Span} {first past count : Nat}
    (inOrder : InOrder spans first) (nonempty : first < past) (within : past ≤ count) :
    InOrder (spans ++ [⟨first, past⟩]) count := by
  refine ⟨?_, ?_, ?_⟩
  · intro span member
    rcases List.mem_append.mp member with earlier | last
    · exact inOrder.nonempty span earlier
    · obtain rfl := List.mem_singleton.mp last
      exact nonempty
  · intro span member
    rcases List.mem_append.mp member with earlier | last
    · exact Nat.le_trans (inOrder.within span earlier) (by omega)
    · obtain rfl := List.mem_singleton.mp last
      exact within
  · refine List.pairwise_append.mpr ⟨inOrder.disjoint, List.pairwise_singleton _ _, ?_⟩
    intro span earlier later last
    obtain rfl := List.mem_singleton.mp last
    exact inOrder.within span earlier

end InOrder

end Span

/-- Where a block that is still open begins, and its depth so far. -/
structure Opening where
  first : Nat
  depth : Int
  deriving DecidableEq, Repr

/-- Where the blocks of some lines are: the number of lines, the places of the closed blocks in
source order, and the beginning of a block that is still open. -/
structure Outline where
  count : Nat
  closed : List Span
  opened : Option Opening
  deriving DecidableEq, Repr

namespace Outline

/-- The outline of no lines. -/
def empty : Outline where
  count := 0
  closed := []
  opened := none

/-- The outline after one more line. It looks at the opening of the line outside a block, and at
its braces inside a block. -/
def push (outline : Outline) (line : Text) : Outline :=
  match outline.opened with
  | none =>
      { outline with
        count := outline.count + 1
        opened := if opens line then some ⟨outline.count, 1⟩ else none }
  | some opening =>
      if opening.depth + balance line = 0 then
        { count := outline.count + 1
          closed := outline.closed ++ [⟨opening.first, outline.count + 1⟩]
          opened := none }
      else
        { outline with
          count := outline.count + 1
          opened := some ⟨opening.first, opening.depth + balance line⟩ }

/-- The outline of some lines. -/
def ofLines (lines : List Text) : Outline :=
  lines.foldl push empty

theorem ofLines_append_singleton (lines : List Text) (line : Text) :
    ofLines (lines ++ [line]) = (ofLines lines).push line := by
  rw [ofLines, List.foldl_append]
  rfl

/-- The places of all blocks; one that is still open ends with the lines. -/
def spans (outline : Outline) : List Span :=
  outline.closed ++ (outline.opened.map fun opening => ⟨opening.first, outline.count⟩).toList

/-- An outline describes an extractor that has seen some lines: it locates the texts that the
extractor filed and the lines that it has captured. -/
structure Describes (outline : Outline) (lines : List Text) (extractor : Extractor) : Prop where
  count : outline.count = lines.length
  finished : extractor.finished.reverse = outline.closed.map (Span.text lines)
  capture : extractor.capture.map (fun capture => (capture.depth, capture.lines)) =
    outline.opened.map fun opening => (opening.depth, lines.drop opening.first)
  inOrder : Span.InOrder outline.closed ((outline.opened.map Opening.first).getD outline.count)
  opened : ∀ opening ∈ outline.opened, opening.first < outline.count

namespace Describes

variable {outline : Outline} {lines : List Text} {extractor : Extractor}

/-- The empty outline describes an extractor before the first line. -/
theorem empty : Describes Outline.empty [] Extractor.empty :=
  ⟨rfl, rfl, rfl, .nil 0, by simp [Outline.empty]⟩

/-- Outline and extractor are outside a block, or inside the same one. -/
theorem outside_or_inside (describes : Describes outline lines extractor) :
    (outline.opened = none ∧ extractor.capture = none) ∨
      ∃ opening capture, outline.opened = some opening ∧ extractor.capture = some capture ∧
        capture.depth = opening.depth ∧ capture.lines = lines.drop opening.first := by
  have same := describes.capture
  cases opened : outline.opened with
  | none =>
      rw [opened] at same
      exact Or.inl ⟨rfl, Option.map_eq_none_iff.mp same⟩
  | some opening =>
      rw [opened] at same
      obtain ⟨capture, captures, equal⟩ := Option.map_eq_some_iff.mp same
      obtain ⟨depth, captured⟩ := Prod.mk.inj equal
      exact Or.inr ⟨opening, capture, rfl, captures, depth, captured⟩

/-- The texts at the places of an outline stay where they are when a line is added. -/
theorem map_text_append (describes : Describes outline lines extractor) (more : List Text) :
    outline.closed.map (Span.text (lines ++ more)) = outline.closed.map (Span.text lines) := by
  apply List.map_congr_left
  intro span member
  apply Span.text_append
  have within := describes.inOrder.within span member
  have count := describes.count
  cases opened : outline.opened with
  | none =>
      rw [opened] at within
      exact count ▸ within
  | some opening =>
      have before := describes.opened opening opened
      rw [opened] at within
      change span.past ≤ opening.first at within
      omega

/-- Outside a block, an outline follows the extractor over a line. -/
theorem push_outside {count : Nat} {closed : List Span} {finished : List Text}
    (describes : Describes ⟨count, closed, none⟩ lines ⟨none, finished⟩) (line : Text) :
    Describes (push ⟨count, closed, none⟩ line) (lines ++ [line])
      (Extractor.push ⟨none, finished⟩ line) := by
  have length : count = lines.length := describes.count
  have located := describes.map_text_append [line]
  have filed := describes.finished.trans located.symm
  have inOrder : Span.InOrder closed count := describes.inOrder
  by_cases opening : opens line = true
  · rw [Extractor.push_opening opening]
    simp only [push, opening, ↓reduceIte]
    refine ⟨by simp [length], filed, ?_, inOrder, by simp⟩
    simp [length]
  · have quiet := Bool.eq_false_iff.mpr opening
    rw [Extractor.push_quiet quiet]
    simp only [push, quiet, Bool.false_eq_true, ↓reduceIte]
    exact ⟨by simp [length], filed, rfl, inOrder.mono (Nat.le_succ count), by simp⟩

/-- Inside a block, an outline follows the extractor over a line. -/
theorem push_inside {count : Nat} {closed : List Span} {opening : Opening} {capture : Capture}
    {finished : List Text}
    (describes : Describes ⟨count, closed, some opening⟩ lines ⟨some capture, finished⟩)
    (depth : capture.depth = opening.depth) (captured : capture.lines = lines.drop opening.first)
    (line : Text) :
    Describes (push ⟨count, closed, some opening⟩ line) (lines ++ [line])
      (Extractor.push ⟨some capture, finished⟩ line) := by
  have length : count = lines.length := describes.count
  have located := describes.map_text_append [line]
  have filed := describes.finished.trans located.symm
  have inOrder : Span.InOrder closed opening.first := describes.inOrder
  have before : opening.first < count := describes.opened opening rfl
  have dropped : (lines ++ [line]).drop opening.first = capture.lines ++ [line] := by
    rw [captured, List.drop_append_of_le_length (by omega)]
  by_cases zero : capture.depth + balance line = 0
  · rw [Extractor.push_closing zero]
    simp only [push, ← depth, zero, ↓reduceIte]
    refine ⟨by simp [length], ?_, rfl, inOrder.append_singleton (by omega) (Nat.le_refl _),
      by simp⟩
    have text : Span.text (lines ++ [line]) ⟨opening.first, count + 1⟩ =
        Text.joinLines (capture.lines ++ [line]) := by
      have whole : count + 1 = (lines ++ [line]).length := by simp [length]
      rw [whole, Span.text_of_past_eq_length, dropped]
    rw [List.map_append, List.map_singleton, text, List.reverse_cons]
    exact congrArg (· ++ [_]) filed
  · rw [Extractor.push_capturing zero]
    simp only [push, ← depth, zero, ↓reduceIte]
    refine ⟨by simp [length], filed, ?_, inOrder, by simp; omega⟩
    simp [dropped]

/-- An outline follows the extractor over any line. -/
theorem push (describes : Describes outline lines extractor) (line : Text) :
    Describes (outline.push line) (lines ++ [line]) (extractor.push line) := by
  obtain ⟨count, closed, opened⟩ := outline
  obtain ⟨capture, finished⟩ := extractor
  obtain ⟨rfl, rfl⟩ | ⟨opening, capture, rfl, rfl, depth, captured⟩ := describes.outside_or_inside
  · exact describes.push_outside line
  · exact describes.push_inside depth captured line

/-- An outline follows the extractor over any lines. -/
theorem foldl_push (describes : Describes outline lines extractor) (more : List Text) :
    Describes (more.foldl Outline.push outline) (lines ++ more)
      (more.foldl Extractor.push extractor) := by
  induction more generalizing outline lines extractor with
  | nil => rwa [List.append_nil]
  | cons line more ih =>
      have run := ih (describes.push line)
      rwa [List.append_assoc, List.singleton_append] at run

/-- An extractor is inside a block exactly if the outline has one open. -/
theorem inside_eq (describes : Describes outline lines extractor) :
    extractor.inside = outline.opened.isSome := by
  have same := congrArg Option.isSome describes.capture
  rwa [Option.isSome_map, Option.isSome_map] at same

/-- The depth of an extractor is that of the block open in the outline. -/
theorem depth_eq (describes : Describes outline lines extractor) :
    extractor.depth = (outline.opened.map Opening.depth).getD 0 := by
  obtain ⟨outside, captures⟩ | ⟨opening, capture, inside, captures, depth, -⟩ :=
    describes.outside_or_inside
  · rw [Extractor.depth, captures, outside]
    rfl
  · rw [Extractor.depth, captures, inside]
    exact depth

/-- The texts at the places of an outline are those that the extractor ends with. -/
theorem finish_eq (describes : Describes outline lines extractor) :
    extractor.finish = outline.spans.map (Span.text lines) := by
  obtain ⟨count, closed, opened⟩ := outline
  obtain ⟨capture, finished⟩ := extractor
  have length : count = lines.length := describes.count
  have filed : finished.reverse = closed.map (Span.text lines) := describes.finished
  obtain ⟨rfl, rfl⟩ | ⟨opening, capture, rfl, rfl, -, captured⟩ := describes.outside_or_inside
  · simp only [Extractor.finish, spans, filed, Option.map_none, Option.toList_none,
      List.append_nil]
  · simp only [Extractor.finish, spans, List.reverse_cons, filed, Option.map_some,
      Option.toList_some, List.map_append, List.map_singleton, length,
      Span.text_of_past_eq_length, Capture.text, captured]

/-- The spans of an outline are in order, the open one included. -/
theorem inOrder_spans (describes : Describes outline lines extractor) :
    Span.InOrder outline.spans lines.length := by
  obtain ⟨count, closed, opened⟩ := outline
  have length : count = lines.length := describes.count
  have inOrder := describes.inOrder
  cases opened with
  | none =>
      rw [spans, Option.map_none, Option.toList_none, List.append_nil]
      exact length ▸ inOrder
  | some opening =>
      exact inOrder.append_singleton (describes.opened opening rfl) (Nat.le_of_eq length)

end Describes

/-- The outline of some lines describes the extractor that has seen them. -/
theorem describes_ofLines (lines : List Text) :
    Describes (ofLines lines) lines (Extractor.ofLines lines) :=
  Describes.empty.foldl_push lines

/-- Lines that give the same answer to the question asked of them have the same effect. -/
theorem push_congr {outline : Outline} {line other : Text}
    (outside : outline.opened.isSome = false → opens line = opens other)
    (inside : outline.opened.isSome = true → balance line = balance other) :
    outline.push line = outline.push other := by
  obtain ⟨count, closed, opened⟩ := outline
  cases opened with
  | none => simp only [push, outside rfl]
  | some opening => simp only [push, inside rfl]

end Outline

/-- The places of the blocks in some lines. -/
def spans (lines : List Text) : List Span :=
  (Outline.ofLines lines).spans

/-- Extraction copies the lines of the places of the blocks. -/
theorem extract_eq_map_spans (lines : List Text) :
    extract lines = (spans lines).map (Span.text lines) :=
  (Outline.describes_ofLines lines).finish_eq

/-- Two inputs with as many lines that agree on what a run over the first one asks of each line:
outside a block whether it opens one, inside a block how its braces balance. -/
structure ReadAlike (lines others : List Text) : Prop where
  length : lines.length = others.length
  outside : ∀ index < lines.length, (Extractor.ofLines (lines.take index)).inside = false →
    lines[index]?.map opens = others[index]?.map opens
  inside : ∀ index < lines.length, (Extractor.ofLines (lines.take index)).inside = true →
    lines[index]?.map balance = others[index]?.map balance

/-- Lines that are read alike have the same outline after each of them. -/
theorem ReadAlike.outline_take {lines others : List Text} (alike : ReadAlike lines others)
    (count : Nat) : Outline.ofLines (lines.take count) = Outline.ofLines (others.take count) := by
  induction count with
  | zero => rfl
  | succ count ih =>
      by_cases within : count < lines.length
      · have withinToo : count < others.length := alike.length ▸ within
        have state := (Outline.describes_ofLines (lines.take count)).inside_eq
        have outside := alike.outside count within
        have inside := alike.inside count within
        rw [List.getElem?_eq_getElem within, List.getElem?_eq_getElem withinToo, state]
          at outside inside
        rw [List.take_add_one, List.take_add_one, List.getElem?_eq_getElem within,
          List.getElem?_eq_getElem withinToo, Option.toList_some, Option.toList_some,
          Outline.ofLines_append_singleton, Outline.ofLines_append_singleton, ← ih]
        exact Outline.push_congr (fun quiet => Option.some.inj (outside quiet))
          (fun capturing => Option.some.inj (inside capturing))
      · have past : lines.length ≤ count := Nat.not_lt.mp within
        have pastToo : others.length ≤ count := alike.length ▸ past
        rw [List.take_of_length_le past, List.take_of_length_le pastToo] at ih
        rwa [List.take_of_length_le (Nat.le_succ_of_le past),
          List.take_of_length_le (Nat.le_succ_of_le pastToo)]

/-- Lines that are read alike have the same spans. -/
theorem ReadAlike.spans_eq {lines others : List Text} (alike : ReadAlike lines others) :
    spans lines = spans others := by
  have whole := alike.outline_take lines.length
  rw [List.take_length, alike.length, List.take_length] at whole
  rw [spans, spans, whole]

/-- With another line in the place of one, a question has the same answers at all indices if it has
the same answer at this place. -/
theorem map_getElem?_replace {Answer : Type} (ask : Text → Answer) (before after : List Text)
    {line other : Text} {index : Nat} (here : index = before.length → ask line = ask other) :
    (before ++ line :: after)[index]?.map ask = (before ++ other :: after)[index]?.map ask := by
  by_cases same : index = before.length
  · have found : ∀ line : Text, (before ++ line :: after)[index]? = some line := fun line => by
      rw [same, List.getElem?_append_right (Nat.le_refl _), Nat.sub_self, List.getElem?_cons_zero]
    rw [found, found, Option.map_some, Option.map_some, here same]
  · rcases Nat.lt_or_gt_of_ne same with earlier | later
    · rw [List.getElem?_append_left earlier, List.getElem?_append_left earlier]
    · obtain ⟨more, rfl⟩ := Nat.exists_eq_add_of_lt later
      rw [List.getElem?_append_right (by omega), List.getElem?_append_right (by omega),
        Nat.add_assoc, Nat.add_sub_cancel_left, List.getElem?_cons_succ, List.getElem?_cons_succ]

/-- Replacing a line by one that gives the same answer leaves an input that is read alike. -/
theorem readAlike_replace {before : List Text} {line other : Text}
    (outside : (Extractor.ofLines before).inside = false → opens line = opens other)
    (inside : (Extractor.ofLines before).inside = true → balance line = balance other)
    (after : List Text) : ReadAlike (before ++ line :: after) (before ++ other :: after) := by
  have reached : (before ++ line :: after).take before.length = before := List.take_left
  refine ⟨by simp only [List.length_append, List.length_cons], ?_, ?_⟩
  · intro index _ state
    apply map_getElem?_replace opens
    rintro rfl
    rw [reached] at state
    exact outside state
  · intro index _ state
    apply map_getElem?_replace balance
    rintro rfl
    rw [reached] at state
    exact inside state

/-- The keyword in a line does not matter inside a block, nor do the braces of a line outside a
block or of an opening line: with another line that gives the same answer in its place, the blocks
lie where they were. -/
theorem spans_replace {before : List Text} {line other : Text}
    (outside : (Extractor.ofLines before).inside = false → opens line = opens other)
    (inside : (Extractor.ofLines before).inside = true → balance line = balance other)
    (after : List Text) : spans (before ++ line :: after) = spans (before ++ other :: after) :=
  (readAlike_replace outside inside after).spans_eq

/-- **Blocks lie where the answers put them.** If two inputs are read alike, their runs are in the
same state after each line, and their texts are those of the same places, in order and without
overlap. -/
theorem extract_of_readAlike {lines others : List Text} (alike : ReadAlike lines others) :
    (∀ count,
      (Extractor.ofLines (lines.take count)).inside =
        (Extractor.ofLines (others.take count)).inside ∧
      (Extractor.ofLines (lines.take count)).depth =
        (Extractor.ofLines (others.take count)).depth ∧
      (Extractor.ofLines (lines.take count)).finished.length =
        (Extractor.ofLines (others.take count)).finished.length) ∧
    (extract lines).length = (extract others).length ∧
    Span.InOrder (spans lines) lines.length ∧
    extract lines = (spans lines).map (Span.text lines) ∧
    extract others = (spans lines).map (Span.text others) := by
  have same := alike.spans_eq
  have first := extract_eq_map_spans lines
  have second := extract_eq_map_spans others
  rw [← same] at second
  refine ⟨fun count => ?_, ?_, (Outline.describes_ofLines lines).inOrder_spans, first, second⟩
  · have describes := Outline.describes_ofLines (lines.take count)
    have describesToo := Outline.describes_ofLines (others.take count)
    rw [← alike.outline_take count] at describesToo
    have filed := congrArg List.length describes.finished
    have filedToo := congrArg List.length describesToo.finished
    rw [List.length_reverse, List.length_map] at filed filedToo
    exact ⟨describes.inside_eq.trans describesToo.inside_eq.symm,
      describes.depth_eq.trans describesToo.depth_eq.symm, filed.trans filedToo.symm⟩
  · rw [first, second, List.length_map, List.length_map]

/-- A block between two other lines, and one that stays open. -/
def plainLines : List Text :=
  [['x'], keyword ++ ['{'], ['y'], ['}'], [], keyword ++ ['{'], ['}', '}']]

/-- The same places in another disguise: braces outside the blocks and on the opening lines, and
the keyword inside a block. -/
def disguisedLines : List Text :=
  [['}', '{', '{'], keyword ++ ['{', '}', '}'], keyword ++ ['{', '}'], ['z', '}'], ['{'],
    keyword ++ ['{', '{'], ['}', 'z', '}']]

/-- The same places hold blocks, whatever the disguise. -/
theorem extract_of_readAlike_plainLines :
    ReadAlike plainLines disguisedLines ∧
      spans plainLines = [⟨1, 4⟩, ⟨5, 7⟩] ∧
      extract plainLines = [⟨1, 4⟩, ⟨5, 7⟩].map (Span.text plainLines) ∧
      extract disguisedLines = [⟨1, 4⟩, ⟨5, 7⟩].map (Span.text disguisedLines) := by
  have alike : ReadAlike plainLines disguisedLines := ⟨rfl, by decide, by decide⟩
  have places : spans plainLines = [⟨1, 4⟩, ⟨5, 7⟩] := by decide
  obtain ⟨-, -, -, first, second⟩ := extract_of_readAlike alike
  rw [places] at first second
  exact ⟨alike, places, first, second⟩

end Block

end AssemblyDigest
