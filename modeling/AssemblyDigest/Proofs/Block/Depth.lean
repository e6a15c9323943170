import AssemblyDigest.Block.Extractor

/-! # Depths along the lines of a block

The depth of a block after some lines is the depth before them plus their balances. Lines
*close* a depth if they bring it to zero with the last of them and not before; they *stay
open* if no line among them brings it to zero. Every list of lines either begins with lines
that close a given depth, which are then the only ones to do so, or stays open
(`AssemblyDigest.Block.closes_or_staysOpen`, `AssemblyDigest.Block.Closes.eq_of_append_eq`).
An extractor inside a block files it after lines that close its depth and keeps it after
lines that stay open.
-/

namespace AssemblyDigest

namespace Block

/-- The count of open braces after some lines, given the count before them. -/
def depthAfter (depth : Int) (lines : List Text) : Int :=
  lines.foldl (fun depth line => depth + balance line) depth

@[simp] theorem depthAfter_nil (depth : Int) : depthAfter depth [] = depth := rfl

@[simp] theorem depthAfter_cons (depth : Int) (line : Text) (lines : List Text) :
    depthAfter depth (line :: lines) = depthAfter (depth + balance line) lines := rfl

/-- Lines that bring a depth to zero with the last of them and not before. -/
structure Closes (depth : Int) (lines : List Text) : Prop where
  nonempty : lines ≠ []
  zero : depthAfter depth lines = 0
  notBefore : ∀ part rest, part ++ rest = lines → part ≠ [] → rest ≠ [] →
    depthAfter depth part ≠ 0

/-- Lines among which none brings a depth to zero. -/
def StaysOpen (depth : Int) (lines : List Text) : Prop :=
  ∀ part rest, part ++ rest = lines → part ≠ [] → depthAfter depth part ≠ 0

theorem StaysOpen.nil (depth : Int) : StaysOpen depth [] := by
  intro part rest split present
  exact (present (List.append_eq_nil_iff.mp split).1).elim

/-- One line closes a depth if it brings it to zero. -/
theorem Closes.single {depth : Int} {line : Text} (zero : depth + balance line = 0) :
    Closes depth [line] := by
  refine ⟨List.cons_ne_nil _ _, by simpa using zero, ?_⟩
  intro part rest split present more
  have lengths := congrArg List.length split
  have first := List.length_pos_iff.mpr present
  have second := List.length_pos_iff.mpr more
  simp only [List.length_append, List.length_singleton] at lengths
  omega

/-- A line that leaves a depth open may be put in front of lines that close the rest. -/
theorem Closes.cons {depth : Int} {line : Text} {lines : List Text}
    (unfinished : depth + balance line ≠ 0) (closes : Closes (depth + balance line) lines) :
    Closes depth (line :: lines) := by
  refine ⟨List.cons_ne_nil _ _, by simpa using closes.zero, ?_⟩
  intro part rest split present more
  obtain ⟨_, rfl⟩ | ⟨tail, rfl, rfl⟩ := List.append_eq_cons_iff.mp split
  · exact (present ‹_›).elim
  · rw [depthAfter_cons]
    by_cases empty : tail = []
    · rwa [empty, depthAfter_nil]
    · exact closes.notBefore tail rest rfl empty more

/-- A line that leaves a depth open may be put in front of lines that stay open. -/
theorem StaysOpen.cons {depth : Int} {line : Text} {lines : List Text}
    (unfinished : depth + balance line ≠ 0) (stays : StaysOpen (depth + balance line) lines) :
    StaysOpen depth (line :: lines) := by
  intro part rest split present
  obtain ⟨_, rfl⟩ | ⟨tail, rfl, rfl⟩ := List.append_eq_cons_iff.mp split
  · exact (present ‹_›).elim
  · rw [depthAfter_cons]
    by_cases empty : tail = []
    · rwa [empty, depthAfter_nil]
    · exact stays tail rest rfl empty

/-- The first line of a closing run either ends the run or leaves the depth to the rest. -/
theorem Closes.uncons {depth : Int} {line : Text} {lines : List Text}
    (closes : Closes depth (line :: lines)) :
    (depth + balance line = 0 ∧ lines = []) ∨
      (depth + balance line ≠ 0 ∧ Closes (depth + balance line) lines) := by
  by_cases empty : lines = []
  · subst empty
    exact Or.inl ⟨by simpa using closes.zero, rfl⟩
  · refine Or.inr ⟨?_, empty, by simpa using closes.zero, ?_⟩
    · simpa using closes.notBefore [line] lines rfl (List.cons_ne_nil _ _) empty
    · intro part rest split present more
      simpa using closes.notBefore (line :: part) rest (by rw [← split]; rfl)
        (List.cons_ne_nil _ _) more

/-- The first line of a run that stays open leaves the depth to the rest. -/
theorem StaysOpen.uncons {depth : Int} {line : Text} {lines : List Text}
    (stays : StaysOpen depth (line :: lines)) :
    depth + balance line ≠ 0 ∧ StaysOpen (depth + balance line) lines := by
  constructor
  · simpa using stays [line] lines rfl (List.cons_ne_nil _ _)
  · intro part rest split present
    simpa using stays (line :: part) rest (by rw [← split]; rfl) (List.cons_ne_nil _ _)

/-- Lines begin with a run that closes a depth, or they stay open. -/
theorem closes_or_staysOpen (depth : Int) (lines : List Text) :
    (∃ body rest, lines = body ++ rest ∧ Closes depth body) ∨ StaysOpen depth lines := by
  induction lines generalizing depth with
  | nil => exact Or.inr (.nil depth)
  | cons line lines ih =>
      by_cases zero : depth + balance line = 0
      · exact Or.inl ⟨[line], lines, rfl, .single zero⟩
      · rcases ih (depth + balance line) with ⟨body, rest, rfl, closes⟩ | stays
        · exact Or.inl ⟨line :: body, rest, rfl, .cons zero closes⟩
        · exact Or.inr (.cons zero stays)

/-- Lines begin with at most one run that closes a depth. -/
theorem Closes.eq_of_append_eq {depth : Int} {body other rest remaining : List Text}
    (closes : Closes depth body) (closesToo : Closes depth other)
    (same : body ++ rest = other ++ remaining) : body = other := by
  rcases List.append_eq_append_iff.mp same with ⟨more, rfl, -⟩ | ⟨more, rfl, -⟩
  · by_cases empty : more = []
    · rw [empty, List.append_nil]
    · exact (closesToo.notBefore body more rfl closes.nonempty empty closes.zero).elim
  · by_cases empty : more = []
    · rw [empty, List.append_nil]
    · exact (closes.notBefore other more rfl closesToo.nonempty empty closesToo.zero).elim

/-- Lines that stay open do not begin with a run that closes the depth. -/
theorem Closes.not_staysOpen {depth : Int} {body rest : List Text} (closes : Closes depth body) :
    ¬ StaysOpen depth (body ++ rest) := fun stays =>
  stays body rest rfl closes.nonempty closes.zero

namespace Capture

@[simp] theorem lines_start (line : Text) : (start line).lines = [line] := rfl

@[simp] theorem depth_start (line : Text) : (start line).depth = 1 := rfl

@[simp] theorem lines_push (capture : Capture) (line : Text) :
    (capture.push line).lines = capture.lines ++ [line] := by
  simp only [push, lines, List.reverse_cons]

@[simp] theorem depth_push (capture : Capture) (line : Text) :
    (capture.push line).depth = capture.depth + balance line := rfl

/-- Capturing more lines appends them. -/
theorem lines_foldl_push (capture : Capture) (more : List Text) :
    (more.foldl push capture).lines = capture.lines ++ more := by
  induction more generalizing capture with
  | nil => rw [List.foldl_nil, List.append_nil]
  | cons line more ih =>
      rw [List.foldl_cons, ih, lines_push, List.append_assoc, List.singleton_append]

/-- Capturing more lines adds their balances. -/
theorem depth_foldl_push (capture : Capture) (more : List Text) :
    (more.foldl push capture).depth = depthAfter capture.depth more := by
  induction more generalizing capture with
  | nil => rw [List.foldl_nil, depthAfter_nil]
  | cons line more ih => rw [List.foldl_cons, ih, depth_push, depthAfter_cons]

end Capture

namespace Extractor

/-- A line that brings the depth of a block to zero files it. -/
theorem push_closing {capture : Capture} {line : Text} (zero : capture.depth + balance line = 0)
    (finished : List Text) :
    push ⟨some capture, finished⟩ line =
      ⟨none, Text.joinLines (capture.lines ++ [line]) :: finished⟩ := by
  simp only [push, settle, Capture.depth_push, zero, ↓reduceIte, Capture.text,
    Capture.lines_push]

/-- Any other line inside a block is captured. -/
theorem push_capturing {capture : Capture} {line : Text}
    (unfinished : capture.depth + balance line ≠ 0) (finished : List Text) :
    push ⟨some capture, finished⟩ line = ⟨some (capture.push line), finished⟩ := by
  simp only [push, settle, Capture.depth_push, unfinished, ↓reduceIte]

/-- An opening line outside a block starts one. -/
theorem push_opening {line : Text} (opening : opens line = true) (finished : List Text) :
    push ⟨none, finished⟩ line = ⟨some (Capture.start line), finished⟩ := by
  simp only [push, opening, ↓reduceIte]

/-- Any other line outside a block is skipped. -/
theorem push_quiet {line : Text} (quiet : opens line = false) (finished : List Text) :
    push ⟨none, finished⟩ line = ⟨none, finished⟩ := by
  simp only [push, quiet, Bool.false_eq_true, ↓reduceIte]

/-- A block is filed after lines that close its depth. -/
theorem foldl_push_of_closes {capture : Capture} {body : List Text}
    (closes : Closes capture.depth body) (finished : List Text) :
    body.foldl push ⟨some capture, finished⟩ =
      ⟨none, Text.joinLines (capture.lines ++ body) :: finished⟩ := by
  induction body generalizing capture with
  | nil => exact (closes.nonempty rfl).elim
  | cons line body ih =>
      rcases closes.uncons with ⟨zero, rfl⟩ | ⟨unfinished, remaining⟩
      · rw [List.foldl_cons, push_closing zero, List.foldl_nil]
      · rw [List.foldl_cons, push_capturing unfinished, ih remaining, Capture.lines_push,
          List.append_assoc, List.singleton_append]

/-- A block stays open after lines that do not close its depth. -/
theorem foldl_push_of_staysOpen {capture : Capture} {body : List Text}
    (stays : StaysOpen capture.depth body) (finished : List Text) :
    body.foldl push ⟨some capture, finished⟩ =
      ⟨some (body.foldl Capture.push capture), finished⟩ := by
  induction body generalizing capture with
  | nil => rfl
  | cons line body ih =>
      obtain ⟨unfinished, remaining⟩ := stays.uncons
      rw [List.foldl_cons, push_capturing unfinished, ih remaining, List.foldl_cons]

end Extractor

end Block

end AssemblyDigest
