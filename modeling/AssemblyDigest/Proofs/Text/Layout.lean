import AssemblyDigest.Proofs.Text.Pieces
import Mathlib.Logic.ExistsUnique

/-! # Layouts of a text

A layout gives a text by its lines: each with the ending that follows it, which is a line feed
with or without a carriage return before it, and at last perhaps a line that no ending follows.
A carriage return before a line feed belongs to the ending and never to the line. Every text has
exactly one layout (`AssemblyDigest.Text.existsUnique_layout`), and its lines are those of the
layout (`AssemblyDigest.Text.lines_layout`).
-/

namespace AssemblyDigest

namespace Text

/-- What ends a line. -/
inductive Ending where
  | feed
  | returnFeed
  deriving DecidableEq, Repr

/-- The characters of an ending. -/
def Ending.text : Ending → Text
  | .feed => ['\n']
  | .returnFeed => ['\r', '\n']

/-- A line with the ending that follows it. -/
@[ext] structure EndedLine where
  line : Text
  ending : Ending
  noFeed : '\n' ∉ line
  noReturn : ending = .feed → line.getLast? ≠ some '\r'

namespace EndedLine

/-- The line and its ending. -/
def text (ended : EndedLine) : Text :=
  ended.line ++ ended.ending.text

/-- What stands before the line feed. -/
def raw (ended : EndedLine) : Text :=
  match ended.ending with
  | .feed => ended.line
  | .returnFeed => ended.line ++ ['\r']

/-- An ended line is its raw characters and a line feed. -/
theorem text_eq (ended : EndedLine) : ended.text = ended.raw ++ ['\n'] := by
  obtain ⟨line, ending, noFeed, noReturn⟩ := ended
  cases ending with
  | feed => rfl
  | returnFeed => simp only [text, raw, Ending.text, List.append_assoc, List.cons_append,
      List.nil_append]

theorem feed_not_mem_raw (ended : EndedLine) : '\n' ∉ ended.raw := by
  obtain ⟨line, ending, noFeed, noReturn⟩ := ended
  cases ending with
  | feed => exact noFeed
  | returnFeed =>
      intro member
      rcases List.mem_append.mp member with inLine | last
      · exact noFeed inLine
      · cases List.mem_singleton.mp last

/-- The line is what stands before the line feed, without a carriage return at its end. -/
theorem line_eq (ended : EndedLine) : ended.line = dropEnd '\r' ended.raw := by
  obtain ⟨line, ending, noFeed, noReturn⟩ := ended
  cases ending with
  | feed => exact (dropEnd_of_getLast?_ne (noReturn rfl)).symm
  | returnFeed => exact (dropEnd_append_mark '\r' line).symm

/-- The ending of a line is known from its raw characters. -/
theorem ending_eq (ended : EndedLine) :
    ended.ending = if ended.raw.getLast? = some '\r' then .returnFeed else .feed := by
  obtain ⟨line, ending, noFeed, noReturn⟩ := ended
  cases ending with
  | feed => exact (if_neg (noReturn rfl)).symm
  | returnFeed => exact (if_pos List.getLast?_concat).symm

/-- What stands before the line feed determines the line and its ending. -/
theorem raw_injective {first second : EndedLine} (same : first.raw = second.raw) :
    first = second := by
  apply EndedLine.ext
  · rw [line_eq, line_eq, same]
  · rw [ending_eq, ending_eq, same]

/-- Whatever stands before a line feed is a line with an ending. -/
theorem exists_raw {raw : Text} (noFeed : '\n' ∉ raw) : ∃ ended : EndedLine, ended.raw = raw := by
  by_cases returns : raw.getLast? = some '\r'
  · obtain ⟨line, rfl⟩ := List.getLast?_eq_some_iff.mp returns
    have noFeedInLine : '\n' ∉ line := fun member => noFeed (List.mem_append_left _ member)
    exact ⟨⟨line, .returnFeed, noFeedInLine, nofun⟩, rfl⟩
  · exact ⟨⟨raw, .feed, noFeed, fun _ => returns⟩, rfl⟩

/-- Characters without line feeds are those of some ended line. -/
theorem exists_map_raw {raws : List Text} (noFeed : ∀ raw ∈ raws, '\n' ∉ raw) :
    ∃ ended : List EndedLine, ended.map raw = raws := by
  induction raws with
  | nil => exact ⟨[], rfl⟩
  | cons first raws ih =>
      obtain ⟨line, rfl⟩ := exists_raw (noFeed first List.mem_cons_self)
      obtain ⟨others, rfl⟩ := ih fun raw member => noFeed raw (List.mem_cons_of_mem _ member)
      exact ⟨line :: others, rfl⟩

end EndedLine

/-- A last line that no ending follows. -/
@[ext] structure LastLine where
  line : Text
  nonempty : line ≠ []
  noFeed : '\n' ∉ line

namespace LastLine

/-- What follows the last line feed: the last line, if there is one. -/
def tail : Option LastLine → Text
  | some last => last.line
  | none => []

theorem feed_not_mem_tail (last : Option LastLine) : '\n' ∉ tail last := by
  cases last with
  | none => exact List.not_mem_nil
  | some last => exact last.noFeed

theorem tail_injective {first second : Option LastLine} (same : tail first = tail second) :
    first = second := by
  cases first with
  | none =>
      cases second with
      | none => rfl
      | some last => exact (last.nonempty same.symm).elim
  | some last =>
      cases second with
      | none => exact (last.nonempty same).elim
      | some other => exact congrArg some (LastLine.ext same)

/-- Characters without line feeds can follow the last one. -/
theorem exists_tail {text : Text} (noFeed : '\n' ∉ text) :
    ∃ last : Option LastLine, tail last = text := by
  by_cases empty : text = []
  · exact ⟨none, empty.symm⟩
  · exact ⟨some ⟨text, empty, noFeed⟩, rfl⟩

/-- What follows the last line feed is a line, if there is anything. -/
theorem lines_tail (last : Option LastLine) :
    lines (tail last) = (last.map LastLine.line).toList := by
  cases last with
  | none => rfl
  | some last => exact lines_of_not_mem last.nonempty last.noFeed

end LastLine

/-- A text by its lines and their endings. -/
@[ext] structure Layout where
  ended : List EndedLine
  last : Option LastLine

namespace Layout

/-- The text that is laid out. -/
def text (layout : Layout) : Text :=
  layout.ended.flatMap EndedLine.text ++ LastLine.tail layout.last

/-- The lines of a layout. -/
def lines (layout : Layout) : List Text :=
  layout.ended.map EndedLine.line ++ (layout.last.map LastLine.line).toList

/-- What stands before the line feeds. -/
def raws (layout : Layout) : List Text :=
  layout.ended.map EndedLine.raw

theorem feed_not_mem_raws (layout : Layout) : ∀ raw ∈ layout.raws, '\n' ∉ raw := by
  intro raw member
  obtain ⟨ended, -, rfl⟩ := List.mem_map.mp member
  exact ended.feed_not_mem_raw

/-- The text of a layout is that of its ended lines, followed by the last one. -/
theorem text_eq (layout : Layout) :
    layout.text = Text.ended layout.raws ++ LastLine.tail layout.last := by
  have texts : EndedLine.text = fun ended => ended.raw ++ ['\n'] := funext EndedLine.text_eq
  rw [text, texts, Text.ended, raws, List.flatMap_map]

/-- Without the carriage returns of their endings, the raw lines are the lines. -/
theorem map_dropEnd_raws (layout : Layout) :
    layout.raws.map (dropEnd '\r') = layout.ended.map EndedLine.line := by
  rw [raws, List.map_map]
  exact List.map_congr_left fun ended _ => ended.line_eq.symm

/-- Cutting the text of a layout at line feeds gives its raw lines and the last one. -/
theorem splitOn_text (layout : Layout) :
    splitOn '\n' layout.text = layout.raws ++ [LastLine.tail layout.last] := by
  rw [text_eq, splitOn_ended_append layout.feed_not_mem_raws (LastLine.feed_not_mem_tail _)]

/-- The text determines its layout. -/
theorem text_injective {first second : Layout} (same : first.text = second.text) :
    first = second := by
  have pieces := congrArg (splitOn '\n') same
  rw [splitOn_text, splitOn_text] at pieces
  obtain ⟨raws, tails⟩ := List.append_inj' pieces rfl
  apply Layout.ext
  · exact (List.map_inj_right fun _ _ => EndedLine.raw_injective).mp raws
  · exact LastLine.tail_injective (List.singleton_inj.mp tails)

/-- Every text has a layout. -/
theorem exists_text (text : Text) : ∃ layout : Layout, layout.text = text := by
  obtain ⟨raws, tail, noFeed, noFeedAfter, rfl⟩ := exists_ended_append text
  obtain ⟨ended, rfl⟩ := EndedLine.exists_map_raw noFeed
  obtain ⟨last, rfl⟩ := LastLine.exists_tail noFeedAfter
  exact ⟨⟨ended, last⟩, text_eq _⟩

end Layout

/-- Every text has exactly one layout. -/
theorem existsUnique_layout (text : Text) : ∃! layout : Layout, layout.text = text := by
  obtain ⟨layout, laidOut⟩ := Layout.exists_text text
  exact ⟨layout, laidOut, fun other same => Layout.text_injective (same.trans laidOut.symm)⟩

/-- The lines of a text are those of its layout. -/
theorem lines_layout (layout : Layout) : lines layout.text = layout.lines := by
  rw [layout.text_eq, lines_ended_append layout.feed_not_mem_raws, LastLine.lines_tail,
    Layout.map_dropEnd_raws]
  rfl

/-- The lines that pieces between line feeds make: each piece but the last loses a carriage return
at its end, and the last is a line if it is not empty. -/
def linesOfPieces {Item : Type} [DecidableEq Item] (mark : Item) (pieces : List (List Item)) :
    List (List Item) :=
  pieces.dropLast.map (dropEnd mark) ++ pieces.getLast?.toList.filter (· ≠ [])

/-- The lines of a text are those that its pieces between line feeds make. -/
theorem lines_eq_linesOfPieces (text : Text) :
    lines text = linesOfPieces '\r' (splitOn '\n' text) := by
  obtain ⟨layout, rfl⟩ := Layout.exists_text text
  have last : [LastLine.tail layout.last].filter (· ≠ []) =
      (layout.last.map LastLine.line).toList := by
    cases layout.last with
    | none => rfl
    | some last => exact List.filter_cons_of_pos (decide_eq_true last.nonempty)
  rw [layout.splitOn_text, linesOfPieces, List.dropLast_concat, List.getLast?_concat,
    Option.toList_some, last, Layout.map_dropEnd_raws, lines_layout, Layout.lines]

end Text

end AssemblyDigest
