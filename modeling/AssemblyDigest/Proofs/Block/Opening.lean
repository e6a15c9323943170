import AssemblyDigest.Block.Opening
import AssemblyDigest.Proofs.Text.Trim

/-! # What an opening line looks like

The search for an opening tries every place of a line in turn and remembers only whether the
character before the place belongs to a word. It succeeds exactly if the line can be divided into
what comes before the keyword, the keyword, a gap of blanks, and what follows from the brace on
(`AssemblyDigest.Block.opens_eq_true_iff`): a keyword that is glued to a word, or that no brace
follows, does not hide one after it.
-/

namespace AssemblyDigest

namespace Block

/-- Whether a text ends in a word, given whether what comes before the text does. -/
def endsInWord (afterWord : Bool) (before : Text) : Bool :=
  before.getLast?.elim afterWord Text.isWordChar

/-- The first character of a text takes the place of what comes before it. -/
theorem endsInWord_cons (afterWord : Bool) (char : Char) (before : Text) :
    endsInWord afterWord (char :: before) = endsInWord (Text.isWordChar char) before := by
  rw [endsInWord, endsInWord, List.getLast?_cons]
  cases before.getLast? <;> rfl

/-- At the start of a line no word has begun. -/
theorem endsInWord_false_eq_false_iff (before : Text) :
    endsInWord false before = false ↔
      ∀ char, before.getLast? = some char → Text.isWordChar char = false := by
  rw [endsInWord]
  cases before.getLast? with
  | none => simp
  | some last => simp

theorem isBlank_brace : Text.isBlank '{' = false := by
  decide

/-- A text begins with an opening if only blanks separate the keyword from a brace. -/
theorem beginsWithOpening_eq_true_iff (text : Text) :
    beginsWithOpening text = true ↔
      ∃ gap after, text = keyword ++ (gap ++ '{' :: after) ∧ Text.Blank gap := by
  have braced : ∀ rest : Text, ((Text.trimStart rest).head? == some '{') = true ↔
      ∃ gap after, rest = gap ++ '{' :: after ∧ Text.Blank gap := fun rest =>
    beq_iff_eq.trans (Text.head?_trimStart_eq_some_iff isBlank_brace)
  rw [beginsWithOpening]
  constructor
  · intro begins
    split at begins
    · next rest found =>
        obtain ⟨gap, after, rfl, blank⟩ := (braced rest).mp begins
        exact ⟨gap, after, (List.isPrefixOf?_eq_some_iff_append_eq.mp found).symm, blank⟩
    · cases begins
  · rintro ⟨gap, after, rfl, blank⟩
    rw [List.isPrefixOf?_eq_some_iff_append_eq.mpr rfl]
    exact (braced _).mpr ⟨gap, after, rfl, blank⟩

theorem beginsWithOpening_nil : beginsWithOpening [] = false := rfl

/-- The search finds an opening at a place that no word reaches. -/
theorem opensAfter_eq_true_iff (afterWord : Bool) (text : Text) :
    opensAfter afterWord text = true ↔
      ∃ before rest, text = before ++ rest ∧ endsInWord afterWord before = false ∧
        beginsWithOpening rest = true := by
  induction text generalizing afterWord with
  | nil =>
      refine iff_of_false Bool.false_ne_true ?_
      rintro ⟨before, rest, division, -, begins⟩
      rw [(List.append_eq_nil_iff.mp division.symm).2, beginsWithOpening_nil] at begins
      cases begins
  | cons char text ih =>
      rw [opensAfter, Bool.or_eq_true, Bool.and_eq_true, Bool.not_eq_true', ih]
      constructor
      · rintro (⟨free, begins⟩ | ⟨before, rest, rfl, free, begins⟩)
        · exact ⟨[], char :: text, rfl, free, begins⟩
        · exact ⟨char :: before, rest, rfl, (endsInWord_cons _ _ _).trans free, begins⟩
      · rintro ⟨before, rest, division, free, begins⟩
        cases before with
        | nil => exact Or.inl ⟨free, division ▸ begins⟩
        | cons first before =>
            obtain ⟨rfl, rfl⟩ := List.cons.inj division
            exact Or.inr ⟨before, rest, rfl, (endsInWord_cons _ _ _).symm.trans free, begins⟩

/-- **Which lines open a block.** Those with the keyword after no word character and before a
brace, with nothing but blanks in between, wherever that is in the line. -/
theorem opens_eq_true_iff (line : Text) :
    opens line = true ↔
      ∃ before gap after, line = before ++ keyword ++ gap ++ '{' :: after ∧ Text.Blank gap ∧
        ∀ char, before.getLast? = some char → Text.isWordChar char = false := by
  rw [opens, opensAfter_eq_true_iff]
  simp only [beginsWithOpening_eq_true_iff, endsInWord_false_eq_false_iff]
  constructor
  · rintro ⟨before, rest, rfl, free, gap, after, rfl, blank⟩
    refine ⟨before, gap, after, ?_, blank, free⟩
    rw [List.append_assoc, List.append_assoc]
  · rintro ⟨before, gap, after, rfl, blank, free⟩
    refine ⟨before, keyword ++ (gap ++ '{' :: after), ?_, free, gap, after, rfl, blank⟩
    rw [List.append_assoc, List.append_assoc]

/-- A keyword glued to a letter and one without a brace do not hide the keyword after them, whose
gap holds a line feed and an ideographic space. -/
example : opens ('ä' :: keyword ++ '{' :: keyword ++ ' ' :: keyword ++ ['\n', '\u3000', '{']) =
    true := by
  decide

end Block

end AssemblyDigest
