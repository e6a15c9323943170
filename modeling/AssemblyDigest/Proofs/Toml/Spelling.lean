import AssemblyDigest.Toml.Quoted

/-! # Spelling a text as a basic string

In a basic string a character stands for itself unless it is a quote, a backslash or a control
character, and any character may be given by an escape. However the characters of a text are
spelled, the reader of basic strings gives the text back and stops after the closing quote
(`AssemblyDigest.Toml.Spelled.read_append`). Every text can be spelled
(`AssemblyDigest.Toml.spelled_escape`).
-/

namespace AssemblyDigest

namespace Toml

/-- The code point that hexadecimal digits continue. -/
def codeFrom? (value : Nat) : Text → Option Nat
  | [] => some value
  | digit :: digits =>
      (Text.hexDigit? digit).bind fun number => codeFrom? (value * 16 + number) digits

/-- The spellings of a character in a basic string. -/
inductive Spelling : Text → Char → Prop
  | itself {char : Char} (plain : isPlain char = true) (notQuote : char ≠ '"')
      (notEscape : char ≠ '\\') : Spelling [char] char
  | letter {letter char : Char} (meant : Text.simpleEscape? letter = some char) :
      Spelling ['\\', letter] char
  | short {digits : Text} {char : Char} (four : digits.length = 4)
      (code : codeFrom? 0 digits = some char.toNat) : Spelling ('\\' :: 'u' :: digits) char
  | long {digits : Text} {char : Char} (eight : digits.length = 8)
      (code : codeFrom? 0 digits = some char.toNat) : Spelling ('\\' :: 'U' :: digits) char

/-- A text whose parts spell the characters of a content. -/
inductive Spelled : Text → Text → Prop
  | nil : Spelled [] []
  | cons {spelling text content : Text} {char : Char} (first : Spelling spelling char)
      (later : Spelled text content) : Spelled (spelling ++ text) (char :: content)

section Reading

/-- The code point of a character is that of a scalar value. -/
theorem scalarOf?_toNat (char : Char) : scalarOf? char.toNat = some char := by
  have valid : char.toNat < 0xD800 ∨ (0xDFFF < char.toNat ∧ char.toNat < 0x110000) := char.valid
  rw [scalarOf?, if_pos valid, Char.ofNat_toNat]

/-- Digits are read to the last one, and then the character of their code point is known. -/
theorem readBasic_code {digits : Text} (nonempty : digits ≠ []) {value : Nat} {char : Char}
    (code : codeFrom? value digits = some char.toNat) (rest : Text) :
    readBasic (.code digits.length value) (digits ++ rest) =
      Text.withChar char (readBasic .plain rest) := by
  induction digits generalizing value with
  | nil => exact (nonempty rfl).elim
  | cons digit digits ih =>
      obtain ⟨number, known, code⟩ := Option.bind_eq_some_iff.mp code
      rw [List.cons_append, List.length_cons, readBasic]
      simp only [known]
      cases digits with
      | nil =>
          have last : value * 16 + number = char.toNat := Option.some.inj code
          simp only [last, scalarOf?_toNat]
          rfl
      | cons next more =>
          rw [if_neg (by simp), Nat.add_sub_cancel]
          exact ih (List.cons_ne_nil _ _) code

/-- A spelling inside a string is read as its character. -/
theorem Spelling.read_append {spelling : Text} {char : Char} (spells : Spelling spelling char)
    (rest : Text) :
    readBasic .plain (spelling ++ rest) = Text.withChar char (readBasic .plain rest) := by
  cases spells with
  | itself plain notQuote notEscape =>
      rw [List.singleton_append, readBasic, if_pos plain]
      · exact notQuote
      · exact notEscape
  | @letter letter char meant =>
      have known : ∀ other, Text.simpleEscape? other = none → letter ≠ other := by
        rintro other meaningless rfl
        rw [meaningless] at meant
        cases meant
      simp [readBasic, known 'u' rfl, known 'U' rfl, meant]
  | @short digits char four code =>
      have nonempty : digits ≠ [] := List.ne_nil_of_length_pos (four ▸ by decide)
      have read := readBasic_code nonempty code rest
      rw [four] at read
      exact read
  | @long digits char eight code =>
      have nonempty : digits ≠ [] := List.ne_nil_of_length_pos (eight ▸ by decide)
      have read := readBasic_code nonempty code rest
      rw [eight] at read
      exact read

/-- A spelled text is read up to its closing quote. -/
theorem Spelled.read_append {spelling content : Text} (spelled : Spelled spelling content)
    (rest : Text) : readBasic .plain (spelling ++ '"' :: rest) = some (content, rest) := by
  induction spelled with
  | nil => rfl
  | cons first later ih =>
      rw [List.append_assoc, first.read_append, ih]
      rfl

/-- A quote that two more quotes do not follow opens a string on one line. -/
theorem readString?_of_short {text : Text} (short : ∀ more, text ≠ '"' :: '"' :: more) :
    readString? ('"' :: text) = readBasic .plain text := by
  rw [readString?]
  rintro more rfl
  exact short more rfl

/-- A spelling does not begin with a quote. -/
theorem Spelling.head_ne_quote {spelling : Text} {char : Char} (spells : Spelling spelling char) :
    ∃ first rest, spelling = first :: rest ∧ first ≠ '"' := by
  cases spells with
  | itself plain notQuote notEscape => exact ⟨_, _, rfl, notQuote⟩
  | letter meant => exact ⟨_, _, rfl, by decide⟩
  | short four code => exact ⟨_, _, rfl, by decide⟩
  | long eight code => exact ⟨_, _, rfl, by decide⟩

/-- A spelled text between quotes is read as a string. An empty one is not taken for the first two
of tripled quotes, unless a third quote follows. -/
theorem Spelled.readString?_append {spelling content : Text} (spelled : Spelled spelling content)
    {rest : Text} (noQuote : rest.head? ≠ some '"') :
    readString? ('"' :: (spelling ++ '"' :: rest)) = some (content, rest) := by
  rw [readString?_of_short, spelled.read_append]
  intro more tripled
  cases spelled with
  | nil =>
      rw [List.nil_append, List.cons.injEq] at tripled
      exact noQuote (tripled.2 ▸ rfl)
  | cons first later =>
      obtain ⟨char, others, rfl, different⟩ := first.head_ne_quote
      exact different (List.cons.inj tripled).1

end Reading

section Writing

/-- A character in a basic string, by its code point if it is a control character. -/
def escapeChar (char : Char) : Text :=
  if char = '"' then ['\\', '"']
  else if char = '\\' then ['\\', '\\']
  else if isPlain char then [char]
  else ['\\', 'u', '0', '0', Text.hexDigit (char.toNat / 16), Text.hexDigit (char.toNat % 16)]

/-- Four hexadecimal digits are read as the control character that they were written for. -/
theorem codeFrom?_control : ∀ code < 0x80,
    codeFrom? 0 ['0', '0', Text.hexDigit (code / 16), Text.hexDigit (code % 16)] = some code := by
  decide

/-- The escape of a character spells it. -/
theorem spelling_escapeChar (char : Char) : Spelling (escapeChar char) char := by
  unfold escapeChar
  split
  · next same =>
      subst same
      exact .letter rfl
  · next notQuote =>
    split
    · next same =>
        subst same
        exact .letter rfl
    · next notEscape =>
      split
      · next plain => exact .itself plain notQuote notEscape
      · next control =>
          have low : char.toNat < 0x80 := by
            refine Nat.lt_of_not_le fun high => control ?_
            have visible : 0x20 ≤ char.toNat ∧ char.toNat ≠ 0x7F := by omega
            simp [isPlain, visible]
          exact .short rfl (codeFrom?_control char.toNat low)

/-- Every text can be spelled. -/
theorem spelled_escape (content : Text) : Spelled (content.flatMap escapeChar) content := by
  induction content with
  | nil => exact .nil
  | cons char content ih =>
      rw [List.flatMap_cons]
      exact .cons (spelling_escapeChar char) ih

end Writing

end Toml

end AssemblyDigest
