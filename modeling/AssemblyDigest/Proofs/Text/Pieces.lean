import AssemblyDigest.Proofs.Text.Lines

/-! # Pieces of a text

The pieces between the separators of a text are those that the library cuts a list into
(`AssemblyDigest.Text.splitOn_eq`). A separator divides them into those before and those after it,
and they hold the other characters of the text. Between line feeds they are what the text is made
of (`AssemblyDigest.Text.exists_ended_append`), and it is made of them in one way only
(`AssemblyDigest.Text.splitOn_ended_append`).
-/

namespace AssemblyDigest

namespace Text

/-- The pieces of a text are those that the library cuts a list into. -/
theorem splitOn_eq (separator : Char) (text : Text) :
    splitOn separator text = List.splitOn separator text := by
  induction text with
  | nil => rfl
  | cons char rest ih =>
      rw [splitOn, List.splitOn_cons_eq_if_modifyHead, ih]
      simp only [beq_iff_eq]
      cases pieces : List.splitOn separator rest with
      | nil => exact (List.splitOn_ne_nil separator rest pieces).elim
      | cons piece more => rfl

/-- A separator divides the pieces of a text into those before and those after it. -/
theorem splitOn_append_cons (separator : Char) (first second : Text) :
    splitOn separator (first ++ separator :: second) =
      splitOn separator first ++ splitOn separator second := by
  rw [splitOn_eq, splitOn_eq, splitOn_eq, List.splitOn_append_cons_self]

/-- A text without separators is one piece. -/
theorem splitOn_of_not_mem {separator : Char} {text : Text} (absent : separator ∉ text) :
    splitOn separator text = [text] := by
  rw [splitOn_eq, List.splitOn_eq_singleton absent]

/-- The pieces of a text hold its characters except the separator. -/
theorem mem_of_mem_splitOn {separator : Char} {text piece : Text}
    (member : piece ∈ splitOn separator text) {char : Char} (within : char ∈ piece) :
    char ∈ text ∧ char ≠ separator := by
  induction text generalizing piece with
  | nil =>
      rw [splitOn, List.mem_singleton] at member
      rw [member] at within
      exact (List.not_mem_nil within).elim
  | cons head rest ih =>
      rw [splitOn] at member
      split at member
      · rcases List.mem_cons.mp member with rfl | later
        · exact (List.not_mem_nil within).elim
        · obtain ⟨inRest, different⟩ := ih later within
          exact ⟨List.mem_cons_of_mem _ inRest, different⟩
      · next notSeparator =>
          cases pieces : splitOn separator rest with
          | nil => exact (splitOn_ne_nil separator rest pieces).elim
          | cons first more =>
              rw [pieces] at ih
              rw [pieces, consFirst] at member
              rcases List.mem_cons.mp member with rfl | later
              · rcases List.mem_cons.mp within with rfl | within
                · exact ⟨List.mem_cons_self, notSeparator⟩
                · obtain ⟨inRest, different⟩ := ih List.mem_cons_self within
                  exact ⟨List.mem_cons_of_mem _ inRest, different⟩
              · obtain ⟨inRest, different⟩ := ih (List.mem_cons_of_mem _ later) within
                exact ⟨List.mem_cons_of_mem _ inRest, different⟩

/-- Pieces without line feeds are found again where each but the last is ended with one. -/
theorem splitOn_ended_append {raws : List Text} {tail : Text}
    (noFeed : ∀ raw ∈ raws, '\n' ∉ raw) (noFeedAfter : '\n' ∉ tail) :
    splitOn '\n' (ended raws ++ tail) = raws ++ [tail] := by
  induction raws with
  | nil => exact splitOn_of_not_mem noFeedAfter
  | cons raw raws ih =>
      rw [ended_cons, List.append_assoc, List.cons_append, splitOn_append_cons,
        splitOn_of_not_mem (noFeed raw List.mem_cons_self),
        ih fun later member => noFeed later (List.mem_cons_of_mem _ member)]
      rfl

/-- Before the last of joined lines all are ended. -/
theorem joinLines_append_singleton (lines : List Text) (last : Text) :
    joinLines (lines ++ [last]) = ended lines ++ last := by
  induction lines with
  | nil => rfl
  | cons line rest ih =>
      simp only [ended_cons, List.append_assoc, List.cons_append, ← ih]
      cases rest with
      | nil => rfl
      | cons next more => rfl

/-- A text is made of pieces without line feeds, each but the last ended with one. -/
theorem exists_ended_append (text : Text) :
    ∃ raws tail, (∀ raw ∈ raws, '\n' ∉ raw) ∧ '\n' ∉ tail ∧ ended raws ++ tail = text := by
  have noFeed : ∀ piece ∈ splitOn '\n' text, '\n' ∉ piece := fun piece member within =>
    (mem_of_mem_splitOn member within).2 rfl
  have whole := joinLines_splitOn text
  have split := List.dropLast_concat_getLast (splitOn_ne_nil '\n' text)
  rw [← split] at noFeed whole
  rw [joinLines_append_singleton] at whole
  exact ⟨_, _, fun raw member => noFeed raw (List.mem_append_left _ member),
    noFeed _ (List.mem_append_right _ (List.mem_singleton_self _)), whole⟩

end Text

end AssemblyDigest
