import AssemblyDigest.Proofs.Json.Grammar
import Mathlib.Data.List.TakeWhile

/-! # Reading JSON

A reader for all of JSON, in recursive descent. It reads a text as a value exactly if the
grammar says that the text denotes the value (`AssemblyDigest.Json.read?_eq_some_iff`); in
particular a text denotes at most one value. Both directions go element by element through a
series, for any reader of its elements, and by the depth of brackets through a value.
-/

namespace AssemblyDigest

namespace Json

section Reading

/-- A text without the blanks at its start. -/
def skipGap (text : Text) : Text :=
  text.dropWhile isGapChar

/-- Whether a character may stand in a word. -/
def isWordChar (char : Char) : Bool :=
  char.isAlphanum || char = '+' || char = '-' || char = '.'

/-- The value of a word. -/
def valueOfWord? (word : Text) : Option Value :=
  if word = "null".toList then some .null
  else if word = "true".toList then some (.boolean true)
  else if word = "false".toList then some (.boolean false)
  else if isNumber word then some (.number word)
  else none

/-- Reads the longest word. -/
def readWord? (text : Text) : Option (Value × Text) :=
  (valueOfWord? (text.takeWhile isWordChar)).map fun value => (value, text.dropWhile isWordChar)

/-- Reads a string after its opening quote. -/
def readString? : Text → Option (Text × Text)
  | [] => none
  | '"' :: rest => some ([], rest)
  | '\\' :: 'u' :: a :: b :: c :: d :: rest =>
      match codeUnit? a b c d with
      | none => none
      | some unit =>
          if isHigh unit then
            match rest with
            | '\\' :: 'u' :: e :: f :: g :: h :: rest =>
                match codeUnit? e f g h with
                | none => none
                | some low =>
                    if isLow low then Text.withChar (charOfPair unit low) (readString? rest)
                    else none
            | _ => none
          else if isLow unit then none
          else Text.withChar (Char.ofNat unit) (readString? rest)
  | '\\' :: letter :: rest =>
      match meaning? letter with
      | none => none
      | some char => Text.withChar char (readString? rest)
  | char :: rest => if isVisible char then Text.withChar char (readString? rest) else none

/-- Reads a series up to its closing bracket, in at most the given number of steps. -/
def readSeries? {α : Type} (closing : Char) (element : Text → Option (α × Text)) :
    Nat → Text → Option (List α × Text)
  | 0, _ => none
  | steps + 1, source => do
      let (item, rest) ← element (skipGap source)
      match skipGap rest with
      | [] => none
      | mark :: rest =>
          if mark = closing then some ([item], rest)
          else if mark = ',' then
            (readSeries? closing element steps rest).map fun found => (item :: found.1, found.2)
          else none

/-- Reads what follows an opening bracket. -/
def readBrackets? {α : Type} (closing : Char) (element : Text → Option (α × Text))
    (text : Text) : Option (List α × Text) :=
  match skipGap text with
  | [] => none
  | mark :: rest =>
      if mark = closing then some ([], rest)
      else readSeries? closing element (text.length + 1) text

/-- Reads a name, a colon and a value. -/
def readField? (value : Text → Option (Value × Text)) : Text → Option ((Text × Value) × Text)
  | '"' :: rest => do
      let (name, rest) ← readString? rest
      match skipGap rest with
      | ':' :: rest => (value (skipGap rest)).map fun found => ((name, found.1), found.2)
      | _ => none
  | _ => none

/-- Reads a value with brackets up to a depth. -/
def readValue? : Nat → Text → Option (Value × Text)
  | 0, _ => none
  | _ + 1, '"' :: rest => (readString? rest).map fun found => (.text found.1, found.2)
  | depth + 1, '[' :: rest =>
      (readBrackets? ']' (readValue? depth) rest).map fun found => (.list found.1, found.2)
  | depth + 1, '\x7b' :: rest =>
      (readBrackets? '\x7d' (readField? (readValue? depth)) rest).map fun found =>
        (.record found.1, found.2)
  | _ + 1, source => readWord? source

/-- Reads a whole text. -/
def read? (text : Text) : Option Value := do
  let (value, rest) ← readValue? (text.length + 1) (skipGap text)
  if skipGap rest = [] then some value else none

end Reading

section Gaps

/-- A text that does not begin with a character of a kind. -/
def Stops (kind : Char → Bool) (text : Text) : Prop :=
  ∀ char, text.head? = some char → kind char = false

/-- Where a kind of characters stops, none of them are left out. -/
theorem Stops.dropWhile_eq {kind : Char → Bool} {text : Text} (stops : Stops kind text) :
    text.dropWhile kind = text := by
  cases text with
  | nil => rfl
  | cons char rest =>
      rw [List.dropWhile_cons_of_neg]
      simp [stops char rfl]

/-- Where a kind of characters stops, none of them are taken. -/
theorem Stops.takeWhile_eq {kind : Char → Bool} {text : Text} (stops : Stops kind text) :
    text.takeWhile kind = [] := by
  cases text with
  | nil => rfl
  | cons char rest =>
      rw [List.takeWhile_cons_of_neg]
      simp [stops char rfl]

theorem Gap.nil : Gap [] := fun _ member => (List.not_mem_nil member).elim

/-- A gap is skipped as far as the text after it. -/
theorem Gap.skip_append {gap : Text} (blank : Gap gap) {text : Text}
    (stops : Stops isGapChar text) : skipGap (gap ++ text) = text := by
  rw [skipGap, List.dropWhile_append_of_pos blank, stops.dropWhile_eq]

/-- What is skipped is a gap. -/
theorem exists_gap (text : Text) : ∃ gap, Gap gap ∧ text = gap ++ skipGap text :=
  ⟨text.takeWhile isGapChar, fun _ member => List.mem_takeWhile_imp member,
    List.takeWhile_append_dropWhile.symm⟩

/-- A word ends before a gap. -/
theorem Gap.stops_append {gap : Text} (blank : Gap gap) {text : Text}
    (stops : Stops isWordChar text) : Stops isWordChar (gap ++ text) := by
  cases gap with
  | nil => exact stops
  | cons char rest =>
      intro first same
      cases same
      have gapChar := blank char List.mem_cons_self
      simp only [isGapChar, Bool.or_eq_true, decide_eq_true_eq] at gapChar
      rcases gapChar with ((rfl | rfl) | rfl) | rfl <;> decide

end Gaps

section Words

theorem isWordChar_of_isDigit {char : Char} (digit : char.isDigit = true) :
    isWordChar char = true := by
  simp [isWordChar, Char.isAlphanum, digit]

/-- A text belongs to words if it does without its sign. -/
theorem isWordChar_of_unsigned {signs : List Char}
    (known : ∀ sign ∈ signs, isWordChar sign = true) {text : Text}
    (rest : ∀ char ∈ unsigned signs text, isWordChar char = true) :
    ∀ char ∈ text, isWordChar char = true := by
  cases text with
  | nil => exact rest
  | cons first text =>
      rw [unsigned] at rest
      split at rest
      · next sign => exact List.forall_mem_cons.mpr ⟨known first sign, rest⟩
      · exact rest

theorem isWordChar_of_isExponent {text : Text} (valid : isExponent text = true) :
    ∀ char ∈ text, isWordChar char = true := by
  cases text with
  | nil => exact fun _ member => (List.not_mem_nil member).elim
  | cons mark rest =>
      simp only [isExponent, Bool.and_eq_true, Bool.or_eq_true, decide_eq_true_eq, isDigits,
        List.all_eq_true] at valid
      obtain ⟨letter, -, digits⟩ := valid
      have signs : ∀ sign ∈ ['+', '-'], isWordChar sign = true := List.all_eq_true.mp rfl
      refine List.forall_mem_cons.mpr ⟨?_, isWordChar_of_unsigned signs ?_⟩
      · rcases letter with rfl | rfl <;> decide
      · exact fun char member => isWordChar_of_isDigit (digits char member)

/-- What follows digits decides whether a text consists of word characters. -/
theorem isWordChar_of_dropWhile {text : Text}
    (rest : ∀ char ∈ text.dropWhile Char.isDigit, isWordChar char = true) :
    ∀ char ∈ text, isWordChar char = true := by
  intro char member
  rw [← List.takeWhile_append_dropWhile (p := Char.isDigit) (l := text)] at member
  rcases List.mem_append.mp member with digit | later
  · exact isWordChar_of_isDigit (List.mem_takeWhile_imp digit)
  · exact rest char later

theorem isWordChar_of_isFraction {text : Text} (valid : isFraction text = true) :
    ∀ char ∈ text, isWordChar char = true := by
  unfold isFraction at valid
  split at valid
  · next rest =>
      have exponent := (Bool.and_eq_true_iff.mp valid).2
      refine List.forall_mem_cons.mpr ⟨by decide, isWordChar_of_dropWhile ?_⟩
      exact isWordChar_of_isExponent exponent
  · exact isWordChar_of_isExponent valid

/-- Numbers hold characters of words only. -/
theorem isWordChar_of_isNumber {word : Text} (valid : isNumber word = true) :
    ∀ char ∈ word, isWordChar char = true := by
  have fraction := (Bool.and_eq_true_iff.mp valid).2
  have signs : ∀ sign ∈ ['-'], isWordChar sign = true := List.all_eq_true.mp rfl
  refine isWordChar_of_unsigned signs (isWordChar_of_dropWhile ?_)
  exact isWordChar_of_isFraction fraction

/-- All that a word can be is made of characters of words. -/
theorem Word.isWordChar {word : Text} {value : Value} (single : Word word value) :
    ∀ char ∈ word, Json.isWordChar char = true := by
  cases single with
  | null => exact List.all_eq_true.mp rfl
  | yes => exact List.all_eq_true.mp rfl
  | no => exact List.all_eq_true.mp rfl
  | number valid => exact isWordChar_of_isNumber valid

theorem Word.nonempty {word : Text} {value : Value} (single : Word word value) : word ≠ [] := by
  cases single with
  | null => decide
  | yes => decide
  | no => decide
  | number valid =>
      rintro rfl
      exact absurd valid (by decide)

/-- The reader knows just the words of the grammar, with their values. -/
theorem valueOfWord?_eq_some_iff {word : Text} {value : Value} :
    valueOfWord? word = some value ↔ Word word value := by
  constructor
  · intro found
    unfold valueOfWord? at found
    split at found
    · next same =>
        cases found
        rw [same]
        exact .null
    · split at found
      · next same =>
          cases found
          rw [same]
          exact .yes
      · split at found
        · next same =>
            cases found
            rw [same]
            exact .no
        · split at found
          · next valid =>
              cases found
              exact .number valid
          · cases found
  · intro single
    cases single with
    | null => rfl
    | yes => rfl
    | no => rfl
    | number valid =>
        have different : ∀ other, isNumber other = false → word ≠ other := by
          rintro other invalid rfl
          rw [valid] at invalid
          cases invalid
        rw [valueOfWord?, if_neg (different _ rfl), if_neg (different _ rfl),
          if_neg (different _ rfl), if_pos valid]

/-- A word is read up to where it stops. -/
theorem Word.read_append {word : Text} {value : Value} (single : Word word value) {rest : Text}
    (stops : Stops Json.isWordChar rest) : readWord? (word ++ rest) = some (value, rest) := by
  have longest : (word ++ rest).takeWhile Json.isWordChar = word := by
    rw [List.takeWhile_append_of_pos single.isWordChar, stops.takeWhile_eq, List.append_nil]
  have after : (word ++ rest).dropWhile Json.isWordChar = rest := by
    rw [List.dropWhile_append_of_pos single.isWordChar, stops.dropWhile_eq]
  rw [readWord?, longest, after, valueOfWord?_eq_some_iff.mpr single, Option.map_some]

/-- What is read as a word is one. -/
theorem exists_of_readWord? {text rest : Text} {value : Value}
    (reads : readWord? text = some (value, rest)) :
    ∃ word, text = word ++ rest ∧ Word word value := by
  obtain ⟨found, known, same⟩ := Option.map_eq_some_iff.mp reads
  cases same
  exact ⟨_, List.takeWhile_append_dropWhile.symm, valueOfWord?_eq_some_iff.mp known⟩

end Words

section Strings

/-- A spelling inside a string is read as its character. -/
theorem Spelling.read_append {spelling : Text} {char : Char} (spells : Spelling spelling char)
    (rest : Text) : readString? (spelling ++ rest) = Text.withChar char (readString? rest) := by
  cases spells with
  | itself visible =>
      have visibleToo := visible
      simp only [isVisible, ne_eq, Bool.and_eq_true, decide_eq_true_eq] at visible
      obtain ⟨⟨-, notQuote⟩, notEscape⟩ := visible
      simp [readString?, notEscape, visibleToo]
  | @letter letter char meant =>
      have notUnit : letter ≠ 'u' := by
        rintro rfl
        have meaningless : meaning? 'u' = none := rfl
        rw [meaningless] at meant
        cases meant
      simp [readString?, notUnit, meant]
  | unit digits notHigh notLow => simp [readString?, digits, notHigh, notLow]
  | pair first isHigh second isLow => simp [readString?, first, isHigh, second, isLow]

/-- A spelled text is read up to its closing quote. -/
theorem Spelled.read_append {spelling content : Text} (spelled : Spelled spelling content)
    (rest : Text) : readString? (spelling ++ '"' :: rest) = some (content, rest) := by
  induction spelled with
  | nil => simp [readString?]
  | cons first later ih =>
      rw [List.append_assoc, first.read_append, ih]
      rfl

/-- A text that continues with the spelling of one character. -/
theorem exists_of_withChar {spelling text rest content : Text} {char : Char}
    (spells : Spelling spelling char)
    (further : ∀ content, readString? text = some (content, rest) →
      ∃ used, text = used ++ '"' :: rest ∧ Spelled used content)
    (reads : Text.withChar char (readString? text) = some (content, rest)) :
    ∃ used, spelling ++ text = used ++ '"' :: rest ∧ Spelled used content := by
  obtain ⟨⟨found, after⟩, read, same⟩ := Option.map_eq_some_iff.mp reads
  cases same
  obtain ⟨used, rfl, spelled⟩ := further _ read
  exact ⟨spelling ++ used, (List.append_assoc _ _ _).symm, .cons spells spelled⟩

/-- What is read as a string is spelled, up to its closing quote. -/
theorem exists_of_readString? {text content rest : Text}
    (reads : readString? text = some (content, rest)) :
    ∃ spelling, text = spelling ++ '"' :: rest ∧ Spelled spelling content := by
  fun_induction readString? text generalizing content with
  | case1 => cases reads
  | case2 =>
      cases reads
      exact ⟨[], rfl, .nil⟩
  | case3 => cases reads
  | case4 => cases reads
  | case5 a b c d unit first high e f g h text low second isLow ih =>
      exact exists_of_withChar (.pair first high second isLow) (fun _ => ih) reads
  | case6 => cases reads
  | case7 => cases reads
  | case8 => cases reads
  | case9 a b c d text unit digits notHigh notLow ih =>
      exact exists_of_withChar
        (.unit digits (Bool.eq_false_iff.mpr notHigh) (Bool.eq_false_iff.mpr notLow))
        (fun _ => ih) reads
  | case10 => cases reads
  | case11 letter text _ char meant ih =>
      exact exists_of_withChar (.letter meant) (fun _ => ih) reads
  | case12 char text _ _ _ visible ih =>
      exact exists_of_withChar (.itself visible) (fun _ => ih) reads
  | case13 => cases reads

end Strings

end Json

end AssemblyDigest
