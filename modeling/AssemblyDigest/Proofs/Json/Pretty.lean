import AssemblyDigest.Proofs.Json.Exactness

/-! # Printed values denote themselves

What is printed for a value is a text that denotes it: every character is spelled in a way that
stands for it, and line feeds and indentation are gaps. So a printed value is well-formed JSON
and is read back (`AssemblyDigest.Json.read?_pretty`), at every level of indentation.
-/

namespace AssemblyDigest

namespace Json

mutual

/-- What a value is as the meaning of a text. -/
def value : Json → Value
  | .text content => .text content
  | .list items => .list (values items)
  | .record fields => .record (fieldValues fields)
termination_by structural json => json

def values : List Json → List Value
  | [] => []
  | item :: items => value item :: values items
termination_by structural items => items

def fieldValues : List (Text × Json) → List (Text × Value)
  | [] => []
  | (name, json) :: fields => (name, value json) :: fieldValues fields
termination_by structural fields => fields

end

theorem values_eq_map (items : List Json) : values items = items.map value := by
  induction items with
  | nil => rfl
  | cons item items ih => rw [values, ih, List.map_cons]

section Strings

/-- Two zeros and two hexadecimal digits are read as the control character that they were written
for. -/
theorem codeUnit?_control : ∀ code < 0x20,
    codeUnit? '0' '0' (Text.hexDigit (code / 16)) (Text.hexDigit (code % 16)) = some code := by
  decide

/-- An escaped character stands for itself. -/
theorem spelling_escapeChar (char : Char) : Spelling (escapeChar char) char := by
  unfold escapeChar
  have short : ∀ letter meant, meaning? letter = some meant → char = meant →
      Spelling ['\\', letter] char := by
    rintro letter meant known rfl
    exact .letter known
  by_cases quoteMark : char = '"'
  · rw [if_pos quoteMark]
    exact short '"' '"' rfl quoteMark
  rw [if_neg quoteMark]
  by_cases backslash : char = '\\'
  · rw [if_pos backslash]
    exact short '\\' '\\' rfl backslash
  rw [if_neg backslash]
  split
  · next same => exact short 'n' '\n' rfl same
  split
  · next same => exact short 'r' '\r' rfl same
  split
  · next same => exact short 't' '\t' rfl same
  split
  · next same => exact short 'b' '\x08' rfl same
  split
  · next same => exact short 'f' '\x0C' rfl same
  split
  · next control =>
      have notHigh : isHigh char.toNat = false := by
        have below : ¬ 0xD800 ≤ char.toNat := by omega
        simp [isHigh, below]
      have notLow : isLow char.toNat = false := by
        have below : ¬ 0xDC00 ≤ char.toNat := by omega
        simp [isLow, below]
      have spelled := Spelling.unit (codeUnit?_control char.toNat control) notHigh notLow
      rwa [Char.ofNat_toNat] at spelled
  · next noControl =>
      have visible : isVisible char = true := by
        simp [isVisible, quoteMark, backslash, Nat.not_lt.mp noControl]
      exact .itself visible

/-- The escapes of the characters of a content spell the content. -/
theorem spelled_escape (content : Text) : Spelled (content.flatMap escapeChar) content := by
  induction content with
  | nil => exact .nil
  | cons char content ih =>
      rw [List.flatMap_cons]
      exact .cons (spelling_escapeChar char) ih

end Strings

section Lines

/-- A line feed and an indentation are a gap. -/
theorem gap_feed_indent (level : Nat) : Gap ('\n' :: indent level) := by
  refine List.forall_mem_cons.mpr ⟨rfl, fun char member => ?_⟩
  rw [List.eq_of_mem_replicate member]
  rfl

variable {α : Type} {element : Text → α → Prop} {text rest after : Text} {item : α}
  {items : List α}

/-- An element on a line of its own is a series. -/
theorem Series.line (inside : element text item) (level : Nat) (gap : Gap after) :
    Series element ('\n' :: (indent level ++ text) ++ after) [item] := by
  have series := Series.last (gap_feed_indent level) inside gap
  simpa only [List.cons_append, List.append_assoc] using series

/-- An element on a line of its own may stand before a series. -/
theorem Series.line_more (inside : element text item) (level : Nat)
    (later : Series element ('\n' :: rest ++ after) items) :
    Series element ('\n' :: (indent level ++ text ++ ',' :: '\n' :: rest) ++ after)
      (item :: items) := by
  have series := Series.more (gap_feed_indent level) inside Gap.nil later
  simpa only [List.cons_append, List.append_assoc, List.nil_append] using series

/-- A field with one blank after its colon. -/
theorem field_quote {json : Value} (name : Text) (inside : Denotes text json) :
    Field Denotes (quote name ++ ':' :: ' ' :: text) (name, json) := by
  have blank : Gap [' '] := List.forall_mem_singleton.mpr rfl
  have field := Field.named (spelled_escape name) Gap.nil blank inside
  simpa only [quote, List.cons_append, List.append_assoc, List.nil_append] using field

end Lines

mutual

/-- A printed value denotes the value. -/
theorem denotes_pretty : (json : Json) → (level : Nat) → Denotes (json.pretty level) json.value
  | .text content, _ => .text (spelled_escape content)
  | .list [], _ => .list (.empty Gap.nil)
  | .list (item :: items), level => by
      have gap := gap_feed_indent level
      have inside := series_prettyItems (item :: items) (level + 1) (List.cons_ne_nil _ _) gap
      exact .list (.series inside)
  | .record [], _ => .record (.empty Gap.nil)
  | .record (field :: fields), level => by
      have gap := gap_feed_indent level
      have inside := series_prettyFields (field :: fields) (level + 1) (List.cons_ne_nil _ _) gap
      exact .record (.series inside)

/-- Items on lines of their own are a series of their values. -/
theorem series_prettyItems : (items : List Json) → (level : Nat) → items ≠ [] →
    {after : Text} → Gap after →
      Series Denotes ('\n' :: prettyItems items level ++ after) (values items)
  | [], _, nonempty, _, _ => (nonempty rfl).elim
  | [item], level, _, _, gap => .line (denotes_pretty item level) level gap
  | item :: next :: more, level, _, _, gap => by
      have later := series_prettyItems (next :: more) level (List.cons_ne_nil _ _) gap
      exact .line_more (denotes_pretty item level) level later

/-- Fields on lines of their own are a series of fields with their values. -/
theorem series_prettyFields : (fields : List (Text × Json)) → (level : Nat) → fields ≠ [] →
    {after : Text} → Gap after →
      Series (Field Denotes) ('\n' :: prettyFields fields level ++ after) (fieldValues fields)
  | [], _, nonempty, _, _ => (nonempty rfl).elim
  | [(name, json)], level, _, after, gap => by
      have inside := field_quote name (denotes_pretty json level)
      have series := Series.line inside level gap
      rwa [← List.append_assoc] at series
  | (name, json) :: next :: more, level, _, after, gap => by
      have later := series_prettyFields (next :: more) level (List.cons_ne_nil _ _) gap
      have inside := field_quote name (denotes_pretty json level)
      have series := Series.line_more inside level later
      rwa [← List.append_assoc] at series

end

/-- **A printed value is read back.** -/
theorem read?_pretty (json : Json) (level : Nat) : read? (json.pretty level) = some json.value := by
  have document := Document.between Gap.nil (denotes_pretty json level) Gap.nil
  rw [List.nil_append, List.append_nil] at document
  exact read?_eq_some_iff.mpr document

end Json

end AssemblyDigest
