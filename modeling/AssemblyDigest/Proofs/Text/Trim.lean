import AssemblyDigest.Text.Blank
import Mathlib.Data.List.Basic
import Mathlib.Data.List.TakeWhile

/-! # Trimming a text

A text is *blank* if all its characters are, and *trimmed* if it is not empty and has no blank at
either end. Every text is blank or a trimmed text between two blank ones
(`AssemblyDigest.Text.blank_or_between`), and trimming a text takes away just these two
(`AssemblyDigest.Text.trim_between`).
-/

namespace AssemblyDigest

namespace Text

/-- A text of blanks. -/
def Blank (text : Text) : Prop :=
  ∀ char ∈ text, isBlank char = true

/-- A text that is not empty and neither starts nor ends with a blank. -/
structure Trimmed (text : Text) : Prop where
  nonempty : text ≠ []
  first : ∀ char, text.head? = some char → isBlank char = false
  last : ∀ char, text.getLast? = some char → isBlank char = false

namespace Blank

theorem nil : Blank [] := fun _ member => (List.not_mem_nil member).elim

theorem append {first second : Text} (blank : Blank first) (blankToo : Blank second) :
    Blank (first ++ second) :=
  List.forall_mem_append.mpr ⟨blank, blankToo⟩

theorem reverse {text : Text} (blank : Blank text) : Blank text.reverse := fun char member =>
  blank char (List.mem_reverse.mp member)

end Blank

/-- Blanks before a text are trimmed away. -/
theorem trimStart_blank_append {gap : Text} (blank : Blank gap) (text : Text) :
    trimStart (gap ++ text) = trimStart text :=
  List.dropWhile_append_of_pos blank

/-- A text that begins with no blank is not trimmed at its start. -/
theorem trimStart_of_head {text : Text}
    (first : ∀ char, text.head? = some char → isBlank char = false) : trimStart text = text := by
  cases text with
  | nil => rfl
  | cons char rest => exact List.dropWhile_cons_of_neg (Bool.eq_false_iff.mp (first char rfl))

/-- What stands before the first character that is no blank is blank. -/
theorem exists_blank_append_trimStart (text : Text) :
    ∃ gap, Blank gap ∧ text = gap ++ trimStart text :=
  ⟨text.takeWhile isBlank, fun _ member => List.mem_takeWhile_imp member,
    List.takeWhile_append_dropWhile.symm⟩

/-- A text that is trimmed at its start begins with no blank. -/
theorem head?_trimStart {text : Text} {char : Char} (found : (trimStart text).head? = some char) :
    isBlank char = false := by
  have stops := List.head?_dropWhile_not isBlank text
  rw [← trimStart, found] at stops
  exact stops

/-- A character that is no blank comes first after the blanks of a text. -/
theorem head?_trimStart_eq_some_iff {text : Text} {char : Char} (solid : isBlank char = false) :
    (trimStart text).head? = some char ↔ ∃ gap rest, text = gap ++ char :: rest ∧ Blank gap := by
  constructor
  · intro found
    obtain ⟨gap, blank, division⟩ := exists_blank_append_trimStart text
    obtain ⟨rest, same⟩ := List.head?_eq_some_iff.mp found
    exact ⟨gap, rest, same ▸ division, blank⟩
  · rintro ⟨gap, rest, rfl, blank⟩
    rw [trimStart_blank_append blank, trimStart_of_head fun other same => ?_]
    · rfl
    · cases same
      exact solid

/-- Nothing is left of a blank text. -/
theorem trim_of_blank {text : Text} (blank : Blank text) : trim text = [] := by
  rw [trim, trimStart, List.dropWhile_eq_nil_iff.mpr blank]
  rfl

namespace Trimmed

variable {text : Text}

theorem head?_append (trimmed : Trimmed text) (after : Text) :
    (text ++ after).head? = text.head? :=
  List.head?_append_of_ne_nil _ trimmed.nonempty

/-- Blanks after a trimmed text are trimmed away. -/
theorem trimEnd_append (trimmed : Trimmed text) {after : Text} (blank : Blank after) :
    trimEnd (text ++ after) = text := by
  have last : ∀ char, text.reverse.head? = some char → isBlank char = false := fun char found =>
    trimmed.last char (List.head?_reverse ▸ found)
  rw [trimEnd, List.reverse_append, trimStart_blank_append blank.reverse, trimStart_of_head last,
    List.reverse_reverse]

end Trimmed

/-- Trimming takes away the blanks around a trimmed text. -/
theorem trim_between {before part after : Text} (blank : Blank before) (trimmed : Trimmed part)
    (blankAfter : Blank after) : trim (before ++ (part ++ after)) = part := by
  have first : ∀ char, (part ++ after).head? = some char → isBlank char = false :=
    trimmed.head?_append after ▸ trimmed.first
  rw [trim, trimStart_blank_append blank, trimStart_of_head first,
    trimmed.trimEnd_append blankAfter]

/-- A text that starts with no blank ends with blanks after a trimmed text. -/
theorem exists_trimmed_append {text : Text} (nonempty : text ≠ [])
    (first : ∀ char, text.head? = some char → isBlank char = false) :
    ∃ part after, text = part ++ after ∧ Trimmed part ∧ Blank after := by
  obtain ⟨gap, blank, division⟩ := exists_blank_append_trimStart text.reverse
  have whole : text = (trimStart text.reverse).reverse ++ gap.reverse := by
    rw [← List.reverse_append, ← division, List.reverse_reverse]
  have partNonempty : (trimStart text.reverse).reverse ≠ [] := by
    intro none
    rw [none, List.nil_append] at whole
    obtain ⟨char, rest, same⟩ := List.exists_cons_of_ne_nil nonempty
    have blankFirst := blank.reverse char (whole ▸ same ▸ List.mem_cons_self)
    rw [first char (same ▸ rfl)] at blankFirst
    cases blankFirst
  refine ⟨_, _, whole, ⟨partNonempty, ?_, ?_⟩, blank.reverse⟩
  · intro char found
    refine first char ?_
    rw [whole, List.head?_append_of_ne_nil _ partNonempty, found]
  · intro char found
    rw [List.getLast?_reverse] at found
    exact head?_trimStart found

/-- **Every text is blank, or a trimmed text between blanks.** -/
theorem blank_or_between (text : Text) :
    Blank text ∨ ∃ before part after, text = before ++ (part ++ after) ∧
      Blank before ∧ Trimmed part ∧ Blank after := by
  obtain ⟨before, blank, division⟩ := exists_blank_append_trimStart text
  by_cases empty : trimStart text = []
  · rw [empty, List.append_nil] at division
    exact Or.inl (division ▸ blank)
  · obtain ⟨part, after, same, trimmed, blankAfter⟩ :=
      exists_trimmed_append empty fun _ => head?_trimStart
    exact Or.inr ⟨before, part, after, same ▸ division, blank, trimmed, blankAfter⟩

/-- Blanks in front of a text do not change what it is trimmed to. -/
theorem trim_blank_append {gap : Text} (blank : Blank gap) (text : Text) :
    trim (gap ++ text) = trim text := by
  rw [trim, trimStart_blank_append blank, ← trim]

/-- Blanks at the end of a text do not change what it is trimmed to. -/
theorem trim_append_blank (text : Text) {gap : Text} (blank : Blank gap) :
    trim (text ++ gap) = trim text := by
  rcases blank_or_between text with
    allBlank | ⟨before, part, after, rfl, blankBefore, trimmed, blankAfter⟩
  · rw [trim_of_blank (allBlank.append blank), trim_of_blank allBlank]
  · rw [List.append_assoc, List.append_assoc,
      trim_between blankBefore trimmed (blankAfter.append blank),
      trim_between blankBefore trimmed blankAfter]

end Text

end AssemblyDigest
