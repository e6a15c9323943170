import AssemblyDigest.Proofs.Json.Reader

/-! # The reader follows the grammar

What the grammar derives is read, and what is read the grammar derives, so that a text is read
as a value exactly if it denotes the value (`AssemblyDigest.Json.read?_eq_some_iff`) and denotes
at most one. Both directions are proved once for a series of any elements in brackets, and then
for values by the depth of their brackets.
-/

namespace AssemblyDigest

namespace Json

/-- The brackets that end a list or a record. -/
def IsClosing (char : Char) : Prop :=
  char = ']' ∨ char = '\x7d'

theorem IsClosing.ne_comma {closing : Char} (closes : IsClosing closing) : ',' ≠ closing := by
  rcases closes with rfl | rfl <;> decide

theorem IsClosing.ne_quote {closing : Char} (closes : IsClosing closing) : '"' ≠ closing := by
  rcases closes with rfl | rfl <;> decide

theorem IsClosing.stops {closing : Char} (closes : IsClosing closing) (rest : Text) :
    Stops isGapChar (closing :: rest) ∧ Stops isWordChar (closing :: rest) := by
  constructor <;> rintro char ⟨⟩ <;> rcases closes with rfl | rfl <;> decide

theorem stops_comma (rest : Text) :
    Stops isGapChar (',' :: rest) ∧ Stops isWordChar (',' :: rest) := by
  constructor <;> rintro char ⟨⟩ <;> decide

/-- A text that begins with neither a blank nor a closing bracket. -/
def Begins (closing : Char) (text : Text) : Prop :=
  ∃ char rest, text = char :: rest ∧ isGapChar char = false ∧ char ≠ closing

/-- What begins an element ends a gap. -/
theorem Begins.stops {closing : Char} {text : Text} (begins : Begins closing text)
    (rest : Text) : Stops isGapChar (text ++ rest) := by
  obtain ⟨char, tail, rfl, notGap, -⟩ := begins
  rintro first ⟨⟩
  exact notGap

section Elements

variable {α : Type} {opening closing : Char} {element : Text → α → Prop}
  {reader : Text → Option (α × Text)} {limit : Nat}

/-- A reader that reads elements shorter than a limit wherever a word would end after them. -/
structure Reads (closing : Char) (element : Text → α → Prop)
    (reader : Text → Option (α × Text)) (limit : Nat) : Prop where
  begins : ∀ {text item}, element text item → Begins closing text
  append : ∀ {text item}, element text item → text.length < limit →
    ∀ {rest}, Stops isWordChar rest → reader (text ++ rest) = some (item, rest)

/-- A reader that reads nothing but elements. -/
def ReadsOnly (element : Text → α → Prop) (reader : Text → Option (α × Text)) : Prop :=
  ∀ {text item rest}, reader text = some (item, rest) →
    ∃ used, text = used ++ rest ∧ element used item

/-- A series is read up to its closing bracket. -/
theorem Reads.series (reads : Reads closing element reader limit) (closes : IsClosing closing)
    {body : Text} {items : List α} (series : Series element body items)
    (within : body.length < limit) {steps : Nat} (enough : body.length < steps) (rest : Text) :
    readSeries? closing reader steps (body ++ closing :: rest) = some (items, rest) := by
  induction series generalizing steps with
  | @last before text after item gap inside gapAfter =>
      obtain ⟨steps, rfl⟩ := Nat.exists_eq_succ_of_ne_zero (Nat.ne_zero_of_lt enough)
      obtain ⟨notGap, notWord⟩ := closes.stops rest
      have start : skipGap (before ++ text ++ after ++ closing :: rest) =
          text ++ (after ++ closing :: rest) := by
        rw [List.append_assoc, List.append_assoc]
        exact gap.skip_append ((reads.begins inside).stops _)
      have short : text.length < limit := by
        simp only [List.length_append] at within
        omega
      have found := reads.append inside short (gapAfter.stops_append notWord)
      have ends : skipGap (after ++ closing :: rest) = closing :: rest :=
        gapAfter.skip_append notGap
      simp only [readSeries?, start, found, ends, Option.bind_eq_bind, Option.bind_some,
        ↓reduceIte]
  | @more before text after body item items gap inside gapAfter later ih =>
      obtain ⟨steps, rfl⟩ := Nat.exists_eq_succ_of_ne_zero (Nat.ne_zero_of_lt enough)
      simp only [List.length_append, List.length_cons] at within enough
      obtain ⟨notGap, notWord⟩ := stops_comma (body ++ closing :: rest)
      have start : skipGap (before ++ text ++ after ++ ',' :: body ++ closing :: rest) =
          text ++ (after ++ ',' :: (body ++ closing :: rest)) := by
        simp only [List.append_assoc, List.cons_append]
        exact gap.skip_append ((reads.begins inside).stops _)
      have found := reads.append inside (by omega) (gapAfter.stops_append notWord)
      have ends : skipGap (after ++ ',' :: (body ++ closing :: rest)) =
          ',' :: (body ++ closing :: rest) := gapAfter.skip_append notGap
      have others : readSeries? closing reader steps (body ++ closing :: rest) =
          some (items, rest) := ih (by omega) (by omega)
      simp only [readSeries?, start, found, ends, others, closes.ne_comma, Option.bind_eq_bind,
        Option.bind_some, ↓reduceIte, Option.map_some]

/-- After a gap, a series begins as its first element does. -/
theorem Reads.begins_series (reads : Reads closing element reader limit) {body : Text}
    {items : List α} (series : Series element body items) :
    ∃ gap rest, body = gap ++ rest ∧ Gap gap ∧ Begins closing rest := by
  cases series with
  | @last before text after item gap inside gapAfter =>
      obtain ⟨char, tail, rfl, begins⟩ := reads.begins inside
      exact ⟨before, char :: tail ++ after, List.append_assoc _ _ _, gap, char, _, rfl, begins⟩
  | @more before text after body item items gap inside gapAfter later =>
      obtain ⟨char, tail, rfl, begins⟩ := reads.begins inside
      refine ⟨before, char :: tail ++ (after ++ ',' :: body), ?_, gap, char, _, rfl, begins⟩
      simp only [List.append_assoc]

/-- What stands in brackets is read up to the closing one. -/
theorem Reads.brackets (reads : Reads closing element reader limit) (closes : IsClosing closing)
    {text : Text} {items : List α} (bracketed : Bracketed opening closing element text items)
    (within : text.length ≤ limit) :
    ∃ inner, text = opening :: inner ∧
      ∀ rest, readBrackets? closing reader (inner ++ rest) = some (items, rest) := by
  cases bracketed with
  | @empty gap blank =>
      refine ⟨gap ++ [closing], rfl, fun rest => ?_⟩
      have ends : skipGap (gap ++ [closing] ++ rest) = closing :: rest := by
        rw [List.append_assoc, List.singleton_append]
        exact blank.skip_append (closes.stops rest).1
      simp only [readBrackets?, ends, ↓reduceIte]
  | @series body items inside =>
      refine ⟨body ++ [closing], rfl, fun rest => ?_⟩
      simp only [List.length_append, List.length_cons] at within
      have shape : body ++ [closing] ++ rest = body ++ closing :: rest := by
        rw [List.append_assoc, List.singleton_append]
      obtain ⟨gap, remaining, rfl, blank, begins⟩ := reads.begins_series inside
      obtain ⟨char, tail, rfl, notGap, notClosing⟩ := begins
      have starts : skipGap (gap ++ char :: tail ++ closing :: rest) =
          char :: (tail ++ closing :: rest) := by
        rw [List.append_assoc]
        apply blank.skip_append
        rintro first ⟨⟩
        exact notGap
      have enough : (gap ++ char :: tail).length <
          (gap ++ char :: tail ++ closing :: rest).length + 1 := by
        simp only [List.length_append]
        omega
      simp only [shape, readBrackets?, starts, notClosing, ↓reduceIte]
      exact reads.series closes inside (by omega) enough rest

/-- A series that is read is a series. -/
theorem ReadsOnly.series (only : ReadsOnly element reader) {steps : Nat} {text rest : Text}
    {items : List α} (reads : readSeries? closing reader steps text = some (items, rest)) :
    ∃ body, text = body ++ closing :: rest ∧ Series element body items := by
  induction steps generalizing text items with
  | zero => cases reads
  | succ steps ih =>
      obtain ⟨⟨item, after⟩, found, reads⟩ := Option.bind_eq_some_iff.mp reads
      obtain ⟨before, gap, start⟩ := exists_gap text
      obtain ⟨used, same, inside⟩ := only found
      obtain ⟨between, gapAfter, ends⟩ := exists_gap after
      rw [same] at start
      dsimp only at reads
      split at reads
      · cases reads
      · next mark left marked =>
          rw [marked] at ends
          split at reads
          · next closes =>
              cases reads
              refine ⟨before ++ used ++ between, ?_, .last gap inside gapAfter⟩
              rw [start, ends, closes]
              simp only [List.append_assoc]
          · split at reads
            · next comma =>
                obtain ⟨⟨others, remaining⟩, readRest, reads⟩ := Option.map_eq_some_iff.mp reads
                cases reads
                obtain ⟨body, rfl, later⟩ := ih readRest
                refine ⟨before ++ used ++ between ++ ',' :: body, ?_,
                  .more gap inside gapAfter later⟩
                rw [start, ends, comma]
                simp only [List.append_assoc, List.cons_append]
            · cases reads

/-- What is read in brackets stands in brackets. -/
theorem ReadsOnly.brackets (only : ReadsOnly element reader) (opening : Char)
    {text rest : Text} {items : List α}
    (reads : readBrackets? closing reader text = some (items, rest)) :
    ∃ inner, text = inner ++ rest ∧ Bracketed opening closing element (opening :: inner) items := by
  unfold readBrackets? at reads
  split at reads
  · cases reads
  · next mark left marked =>
      split at reads
      · next closes =>
          cases reads
          obtain ⟨gap, blank, start⟩ := exists_gap text
          refine ⟨gap ++ [closing], ?_, .empty blank⟩
          rw [start, marked, closes, List.append_assoc, List.singleton_append]
      · obtain ⟨body, rfl, inside⟩ := only.series reads
        refine ⟨body ++ [closing], ?_, .series inside⟩
        rw [List.append_assoc, List.singleton_append]

end Elements

section Fields

variable {closing : Char} {reader : Text → Option (Value × Text)} {limit : Nat}

/-- A reader of values makes a reader of fields. -/
theorem Reads.field (reads : Reads closing Denotes reader limit) (closes : IsClosing closing) :
    Reads closing (Field Denotes) (readField? reader) limit where
  begins := by
    intro text field named
    cases named
    exact ⟨'"', _, rfl, by decide, closes.ne_quote⟩
  append := by
    intro text field named within rest stops
    obtain @⟨spelling, name, before, after, text, value, spelled, gap, gapAfter, inside⟩ := named
    simp only [List.length_append] at within
    have colon : Stops isGapChar (':' :: (after ++ (text ++ rest))) := by
      rintro char ⟨⟩
      decide
    have quoted := spelled.read_append (before ++ ':' :: (after ++ (text ++ rest)))
    have between := gap.skip_append colon
    have start : skipGap (after ++ (text ++ rest)) = text ++ rest :=
      gapAfter.skip_append ((reads.begins inside).stops rest)
    have found := reads.append inside (by omega) stops
    simp only [List.cons_append, List.append_assoc, readField?, quoted, between, start, found,
      Option.bind_eq_bind, Option.bind_some, Option.map_some]

/-- If a reader reads only values, fields are read only where there are fields. -/
theorem ReadsOnly.field (only : ReadsOnly Denotes reader) :
    ReadsOnly (Field Denotes) (readField? reader) := by
  intro text item rest reads
  unfold readField? at reads
  split at reads
  · next inner =>
      obtain ⟨⟨name, after⟩, named, reads⟩ := Option.bind_eq_some_iff.mp reads
      obtain ⟨spelling, starts, spelled⟩ := exists_of_readString? named
      obtain ⟨before, gap, start⟩ := exists_gap after
      dsimp only at reads
      split at reads
      · next left colon =>
          obtain ⟨⟨value, remaining⟩, found, reads⟩ := Option.map_eq_some_iff.mp reads
          cases reads
          obtain ⟨between, gapAfter, ends⟩ := exists_gap left
          obtain ⟨used, same, inside⟩ := only found
          refine ⟨_, ?_, .named spelled gap gapAfter inside⟩
          rw [starts, start, colon, ends, same]
          simp only [List.cons_append, List.append_assoc]
      · cases reads
  · cases reads

end Fields

section Values

/-- A character of a word is no gap and closes nothing. -/
theorem begins_of_isWordChar {closing char : Char} (closes : IsClosing closing)
    (letter : isWordChar char = true) : isGapChar char = false ∧ char ≠ closing := by
  constructor
  · by_contra blank
    simp only [isGapChar, Bool.not_eq_false, Bool.or_eq_true, decide_eq_true_eq] at blank
    rcases blank with ((rfl | rfl) | rfl) | rfl <;> revert letter <;> decide
  · rintro rfl
    rcases closes with rfl | rfl <;> revert letter <;> decide

/-- The text of a value begins with no gap and no closing bracket. -/
theorem Denotes.begins {closing : Char} (closes : IsClosing closing) {text : Text}
    {value : Value} (denotes : Denotes text value) : Begins closing text := by
  have marks : ∀ mark ∈ ['"', '[', '\x7b'], ∀ rest, Begins closing (mark :: rest) := by
    intro mark member rest
    refine ⟨mark, rest, rfl, ?_, ?_⟩
    · simp only [List.mem_cons, List.not_mem_nil, or_false] at member
      rcases member with rfl | rfl | rfl <;> decide
    · rintro rfl
      rcases closes with rfl | rfl <;> revert member <;> decide
  cases denotes with
  | word single =>
      obtain ⟨char, rest, rfl⟩ := List.exists_cons_of_ne_nil single.nonempty
      exact ⟨char, rest, rfl, begins_of_isWordChar closes (single.isWordChar _ List.mem_cons_self)⟩
  | text spelled => exact marks '"' (by decide) _
  | list inside => cases inside <;> exact marks '[' (by decide) _
  | record inside => cases inside <;> exact marks '\x7b' (by decide) _

/-- A value is read if brackets may be nested as deeply as its text is long. -/
theorem Denotes.read_append {depth : Nat} {text : Text} {value : Value}
    (denotes : Denotes text value) (shallow : text.length < depth) {rest : Text}
    (stops : Stops isWordChar rest) : readValue? depth (text ++ rest) = some (value, rest) := by
  induction depth generalizing text value rest with
  | zero => exact (Nat.not_lt_zero _ shallow).elim
  | succ depth ih =>
      have reads : ∀ {closing}, IsClosing closing →
          Reads closing Denotes (readValue? depth) depth := by
        intro closing closes
        exact ⟨fun inside => inside.begins closes,
          fun inside short _ stops => ih inside short stops⟩
      cases denotes with
      | word single =>
          have found := single.read_append stops
          obtain ⟨char, tail, rfl⟩ := List.exists_cons_of_ne_nil single.nonempty
          have letter := single.isWordChar char List.mem_cons_self
          rw [List.cons_append] at found ⊢
          -- No mark that begins another value is a letter of a word.
          rw [readValue?]
          · exact found
          · rintro _ ⟨⟩
            exact absurd letter (by decide)
          · rintro _ ⟨⟩
            exact absurd letter (by decide)
          · rintro _ ⟨⟩
            exact absurd letter (by decide)
      | @text spelling content spelled =>
          have found := spelled.read_append rest
          simp only [List.cons_append, List.append_assoc, List.nil_append, readValue?, found,
            Option.map_some]
      | list inside =>
          have closes : IsClosing ']' := Or.inl rfl
          obtain ⟨inner, rfl, found⟩ := (reads closes).brackets closes inside (by omega)
          rw [List.cons_append, readValue?, found, Option.map_some]
      | record inside =>
          have closes : IsClosing '\x7d' := Or.inr rfl
          obtain ⟨inner, rfl, found⟩ :=
            ((reads closes).field closes).brackets closes inside (by omega)
          rw [List.cons_append, readValue?, found, Option.map_some]

/-- Nothing is read but what a text denotes. -/
theorem readsOnly_readValue? (depth : Nat) : ReadsOnly Denotes (readValue? depth) := by
  induction depth with
  | zero =>
      intro text value rest reads
      cases reads
  | succ depth ih =>
      intro text value rest reads
      unfold readValue? at reads
      split at reads
      · cases reads
      · next inner _ =>
          obtain ⟨⟨content, after⟩, found, same⟩ := Option.map_eq_some_iff.mp reads
          cases same
          obtain ⟨spelling, rfl, spelled⟩ := exists_of_readString? found
          refine ⟨'"' :: spelling ++ ['"'], ?_, .text spelled⟩
          simp only [List.cons_append, List.append_assoc, List.nil_append]
      · next depth inner same =>
          cases same
          obtain ⟨⟨items, after⟩, found, same⟩ := Option.map_eq_some_iff.mp reads
          cases same
          obtain ⟨body, rfl, inside⟩ := ih.brackets '[' found
          exact ⟨'[' :: body, rfl, .list inside⟩
      · next depth inner same =>
          cases same
          obtain ⟨⟨fields, after⟩, found, same⟩ := Option.map_eq_some_iff.mp reads
          cases same
          have fields : ReadsOnly (Field Denotes) (readField? (readValue? depth)) := ih.field
          obtain ⟨body, rfl, inside⟩ := fields.brackets '\x7b' found
          exact ⟨'\x7b' :: body, rfl, .record inside⟩
      · obtain ⟨word, rfl, single⟩ := exists_of_readWord? reads
        exact ⟨word, rfl, .word single⟩

end Values

/-- **The reader follows the grammar**: it reads a text as a value exactly if the text denotes
the value. -/
theorem read?_eq_some_iff {text : Text} {value : Value} :
    read? text = some value ↔ Document text value := by
  constructor
  · intro reads
    obtain ⟨⟨found, rest⟩, valued, ended⟩ := Option.bind_eq_some_iff.mp reads
    dsimp only at ended
    split at ended
    · next finished =>
        cases ended
        obtain ⟨used, same, inside⟩ := readsOnly_readValue? _ valued
        obtain ⟨before, gap, start⟩ := exists_gap text
        obtain ⟨after, gapAfter, ends⟩ := exists_gap rest
        rw [finished, List.append_nil] at ends
        rw [start, same, ends, ← List.append_assoc]
        exact .between gap inside gapAfter
    · cases ended
  · rintro @⟨before, body, after, value, gap, inside, gapAfter⟩
    have begins := inside.begins (Or.inl rfl : IsClosing ']')
    have start : skipGap (before ++ body ++ after) = body ++ after := by
      rw [List.append_assoc]
      exact gap.skip_append (begins.stops after)
    have nothing : ∀ kind, Stops kind [] := fun kind char impossible => by cases impossible
    have stops : Stops isWordChar after := by
      have ended := gapAfter.stops_append (nothing isWordChar)
      rwa [List.append_nil] at ended
    have finished : skipGap after = [] := by
      have ended := gapAfter.skip_append (nothing isGapChar)
      rwa [List.append_nil] at ended
    have shallow : body.length < (before ++ body ++ after).length + 1 := by
      simp only [List.length_append]
      omega
    have valued := inside.read_append shallow stops
    simp only [read?, start, valued, finished, Option.bind_eq_bind, Option.bind_some, ↓reduceIte]

-- Escapes of code units and of pairs, numbers with exponents, and blanks of every kind are read.
example :
    read? "\t[ 1.5E+3,\r\n\"\\uD83D\\ude00\\/\", null ] ".toList =
      some (.list [.number "1.5E+3".toList, .text [Char.ofNat 0x1F600, '/'], .null]) := by
  cbv

/-- A document denotes one value. -/
theorem Document.unique {text : Text} {value other : Value} (denotes : Document text value)
    (denotesToo : Document text other) : value = other := by
  have reads := read?_eq_some_iff.mpr denotes
  rw [read?_eq_some_iff.mpr denotesToo] at reads
  exact (Option.some.inj reads).symm

end Json

end AssemblyDigest
