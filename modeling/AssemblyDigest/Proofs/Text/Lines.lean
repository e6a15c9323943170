import AssemblyDigest.Text

/-! # Lines of a text

A line is *plain* if it holds no line feed and does not end with a carriage return, so that
ending it with a line feed changes nothing about it. A text made of plain lines, each ended
with a line feed, has just these lines (`AssemblyDigest.Text.lines_ended`). The lines of any
text hold no line feed.
-/

namespace AssemblyDigest

/-- Items without the last one if it is a given mark. -/
def dropEnd {Item : Type} [DecidableEq Item] (mark : Item) (items : List Item) : List Item :=
  if items.getLast? = some mark then items.dropLast else items

section DropEnd

variable {Item : Type} [DecidableEq Item] {mark : Item}

/-- Without the mark at the end nothing is dropped. -/
theorem dropEnd_of_getLast?_ne {items : List Item} (different : items.getLast? ≠ some mark) :
    dropEnd mark items = items :=
  if_neg different

theorem dropEnd_append_mark (mark : Item) (items : List Item) :
    dropEnd mark (items ++ [mark]) = items := by
  rw [dropEnd, if_pos List.getLast?_concat, List.dropLast_concat]

theorem dropEnd_singleton {item : Item} (different : item ≠ mark) :
    dropEnd mark [item] = [item] :=
  dropEnd_of_getLast?_ne fun same => different (Option.some.inj same)

/-- Dropping at the end leaves all items before the last one alone. -/
theorem dropEnd_cons_cons (mark item next : Item) (items : List Item) :
    dropEnd mark (item :: next :: items) = item :: dropEnd mark (next :: items) := by
  rw [dropEnd, dropEnd, List.getLast?_cons_cons, List.dropLast_cons_cons, ← apply_ite]

end DropEnd

namespace Text

/-- A line that a line feed after it leaves as it is. -/
structure PlainLine (line : Text) : Prop where
  noFeed : '\n' ∉ line
  noReturn : line.getLast? ≠ some '\r'

/-- Lines, each ended with a line feed. -/
def ended (lines : List Text) : Text :=
  lines.flatMap (· ++ ['\n'])

theorem ended_cons (line : Text) (lines : List Text) :
    ended (line :: lines) = line ++ '\n' :: ended lines := by
  simp only [ended, List.flatMap_cons, List.append_assoc, List.singleton_append]

theorem ended_append (first second : List Text) :
    ended (first ++ second) = ended first ++ ended second := by
  rw [ended, List.flatMap_append, ended, ended]

/-- Joined lines with a line feed at the end are all ended. -/
theorem joinLines_append_feed {lines : List Text} (nonempty : lines ≠ []) :
    joinLines lines ++ ['\n'] = ended lines := by
  induction lines with
  | nil => exact (nonempty rfl).elim
  | cons line rest ih =>
      cases rest with
      | nil =>
          rw [ended_cons]
          rfl
      | cons next more =>
          rw [joinLines, ended_cons, List.append_assoc, List.cons_append,
            ih (List.cons_ne_nil _ _)]

/-- A character that does not begin a line ending belongs to the first line. -/
theorem lines_cons {char : Char} {rest : Text} (noFeed : char ≠ '\n')
    (noBreak : char = '\r' → rest.head? ≠ some '\n') :
    lines (char :: rest) = consFirst char (lines rest) := by
  rw [lines]
  · exact noFeed
  · rintro tail returns rfl
    exact noBreak returns rfl

/-- A line that is ended with a line feed is the first line, without the carriage return at its
end if it has one. -/
theorem lines_append_feed {line : Text} (noFeed : '\n' ∉ line) (rest : Text) :
    lines (line ++ '\n' :: rest) = dropEnd '\r' line :: lines rest := by
  induction line with
  | nil => rfl
  | cons char line ih =>
      have different : char ≠ '\n' := (List.ne_of_not_mem_cons noFeed).symm
      have noFeedAfter : '\n' ∉ line := List.not_mem_of_not_mem_cons noFeed
      cases line with
      | nil =>
          by_cases returns : char = '\r'
          · subst returns
            rfl
          · rw [List.cons_append, List.nil_append,
              lines_cons different fun same => (returns same).elim, dropEnd_singleton returns]
            rfl
      | cons next line =>
          have noFeedNext : next ≠ '\n' := (List.ne_of_not_mem_cons noFeedAfter).symm
          have noBreak : char = '\r' → (next :: line ++ '\n' :: rest).head? ≠ some '\n' := by
            intro _ feed
            exact noFeedNext (Option.some.inj feed)
          rw [List.cons_append, lines_cons different noBreak, ih noFeedAfter, dropEnd_cons_cons]
          rfl

/-- Lines that are ended with line feeds come first, each without a carriage return at its end. -/
theorem lines_ended_append {raws : List Text} (noFeed : ∀ raw ∈ raws, '\n' ∉ raw)
    (rest : Text) : lines (ended raws ++ rest) = raws.map (dropEnd '\r') ++ lines rest := by
  induction raws with
  | nil => rfl
  | cons raw raws ih =>
      rw [ended_cons, List.append_assoc, List.cons_append,
        lines_append_feed (noFeed raw List.mem_cons_self),
        ih fun later member => noFeed later (List.mem_cons_of_mem _ member)]
      rfl

/-- **Plain lines are read back** from the text in which each is ended with a line feed. -/
theorem lines_ended {lines : List Text} (plain : ∀ line ∈ lines, PlainLine line) :
    Text.lines (ended lines) = lines := by
  have kept : lines.map (dropEnd '\r') = lines.map id :=
    List.map_congr_left fun line member => dropEnd_of_getLast?_ne (plain line member).noReturn
  rw [← List.append_nil (ended lines),
    lines_ended_append fun line member => (plain line member).noFeed, kept, List.map_id]
  exact List.append_nil lines

/-- A text without line feeds is a line if it is not empty, and keeps its carriage returns. -/
theorem lines_of_not_mem {text : Text} (nonempty : text ≠ []) (noFeed : '\n' ∉ text) :
    lines text = [text] := by
  induction text with
  | nil => exact (nonempty rfl).elim
  | cons char rest ih =>
      have noFeedAfter : '\n' ∉ rest := List.not_mem_of_not_mem_cons noFeed
      have noBreak : char = '\r' → rest.head? ≠ some '\n' := by
        intro _ feed
        exact noFeedAfter (List.mem_of_head? feed)
      rw [lines_cons (List.ne_of_not_mem_cons noFeed).symm noBreak]
      by_cases last : rest = []
      · subst last
        rfl
      · rw [ih last noFeedAfter]
        rfl

theorem feed_not_mem_consFirst {char : Char} (noFeed : char ≠ '\n') {pieces : List Text}
    (none : ∀ piece ∈ pieces, '\n' ∉ piece) :
    ∀ piece ∈ consFirst char pieces, '\n' ∉ piece := by
  cases pieces with
  | nil =>
      intro piece member
      rw [consFirst, List.mem_singleton] at member
      rw [member, List.mem_singleton]
      exact noFeed.symm
  | cons first more =>
      intro piece member
      rcases List.mem_cons.mp member with rfl | later
      · apply List.not_mem_cons_of_ne_of_not_mem noFeed.symm
        exact none first List.mem_cons_self
      · exact none piece (List.mem_cons_of_mem _ later)

/-- Lines hold no line feeds. -/
theorem feed_not_mem_of_mem_lines (text : Text) : ∀ line ∈ lines text, '\n' ∉ line := by
  have blankFirst : ∀ {found : List Text}, (∀ line ∈ found, '\n' ∉ line) →
      ∀ line ∈ [] :: found, '\n' ∉ line := by
    intro found none line member
    rcases List.mem_cons.mp member with rfl | later
    · exact List.not_mem_nil
    · exact none line later
  fun_induction lines text with
  | case1 =>
      intro line member
      exact (List.not_mem_nil member).elim
  | case2 rest ih => exact blankFirst ih
  | case3 rest ih => exact blankFirst ih
  | case4 char rest noFeed noBreak ih => exact feed_not_mem_consFirst noFeed ih

end Text

end AssemblyDigest
