import AssemblyDigest.Proofs.Utf8.Encode
import Mathlib.Tactic.SplitIfs

/-! # Reading only what was written

The bytes read since the last character boundary are the beginning of the bytes of every
character that the sequence can still become (`AssemblyDigest.Utf8.Begun`). A byte that neither
leaves a gap nor completes the sequence keeps it so, and one that completes it yields the
character whose bytes were read. Hence the strict reading accepts the bytes of texts and no
others (`AssemblyDigest.Utf8.decode?_eq_some_iff`).
-/

namespace AssemblyDigest

namespace Utf8

/-- The bits of a code point that stand before its last trailing bytes. -/
def upperBits : Nat → Nat → Nat
  | 0, code => code
  | count + 1, code => upperBits count code / 64

/-- The last trailing bytes of a code point. -/
def trails : Nat → Nat → Bytes
  | 0, _ => []
  | count + 1, code => trailByte (upperBits count code) :: trails count code

/-- Bytes begin a sequence if they begin the bytes of every code point that has the bits read so
far and whose next trailing byte is within the bounds. -/
structure Begun (seen : Bytes) (sequence : Sequence) : Prop where
  unfinished : 0 < sequence.missing
  low : 0x80 ≤ sequence.low
  high : sequence.high ≤ 0xBF
  completes : ∀ code, upperBits sequence.missing code = sequence.bits →
    sequence.low ≤ 0x80 + upperBits (sequence.missing - 1) code % 64 →
    0x80 + upperBits (sequence.missing - 1) code % 64 ≤ sequence.high →
    encodeChar (Char.ofNat code) = seen ++ trails sequence.missing code

theorem trailByte_eq {byte : UInt8} {bits : Nat} (low : 0x80 ≤ byte.toNat)
    (high : byte.toNat ≤ 0xBF) (same : bits % 64 = byte.toNat % 64) : trailByte bits = byte := by
  apply UInt8.toNat_inj.mp
  rw [toNat_trailByte]
  omega

/-- A trailing byte that completes a sequence yields the character with these bytes. -/
theorem Begun.last {seen : Bytes} {low high bits : Nat} {byte : UInt8}
    (begun : Begun seen ⟨1, low, high, bits⟩) (above : low ≤ byte.toNat)
    (below : byte.toNat ≤ high) :
    encodeChar (Char.ofNat (bits * 64 + byte.toNat % 64)) = seen ++ [byte] := by
  have least : 0x80 ≤ low := begun.low
  have most : high ≤ 0xBF := begun.high
  have trailing : trailByte (bits * 64 + byte.toNat % 64) = byte :=
    trailByte_eq (by omega) (by omega) (by omega)
  rw [begun.completes, trails, trails, upperBits, trailing]
  · simp only [upperBits]
    omega
  · simp only [Nat.sub_self, upperBits]
    omega
  · simp only [Nat.sub_self, upperBits]
    omega

/-- An earlier trailing byte continues a sequence. -/
theorem Begun.earlier {seen : Bytes} {missing low high bits : Nat} {byte : UInt8}
    (begun : Begun seen ⟨missing + 2, low, high, bits⟩) (above : low ≤ byte.toNat)
    (below : byte.toNat ≤ high) :
    Begun (seen ++ [byte]) ⟨missing + 1, 0x80, 0xBF, bits * 64 + byte.toNat % 64⟩ := by
  have least : 0x80 ≤ low := begun.low
  have most : high ≤ 0xBF := begun.high
  refine ⟨Nat.succ_pos _, Nat.le_refl _, Nat.le_refl _, ?_⟩
  intro code same _ _
  change upperBits (missing + 1) code = bits * 64 + byte.toNat % 64 at same
  have trailing : trailByte (upperBits (missing + 1) code) = byte :=
    trailByte_eq (by omega) (by omega) (by omega)
  rw [begun.completes, trails, trailing, List.append_assoc, List.singleton_append]
  · change upperBits (missing + 1) code / 64 = bits
    omega
  · change low ≤ 0x80 + upperBits (missing + 1) code % 64
    omega
  · change 0x80 + upperBits (missing + 1) code % 64 ≤ high
    omega

/-- The bytes of a code point that is a character. -/
theorem encodeChar_ofNat {code : Nat} (valid : code.isValidChar) :
    encodeChar (Char.ofNat code) =
      if code < 0x80 then [UInt8.ofNat code]
      else if code < 0x800 then UInt8.ofNat (0xC0 + code / 64) :: trails 1 code
      else if code < 0x10000 then UInt8.ofNat (0xE0 + code / 4096) :: trails 2 code
      else UInt8.ofNat (0xF0 + code / 262144) :: trails 3 code := by
  have back : (Char.ofNat code).toNat = code := by
    rw [Char.ofNat, dif_pos valid]
    rfl
  rw [encodeChar_eq, back]
  simp only [trails, upperBits, Nat.div_div_eq_div_mul, Nat.reduceMul]

/-- Characters below `0x800` are a leading byte and one trail. -/
theorem encodeChar_two {byte : UInt8} {code : Nat} (first : byte.toNat = 0xC0 + code / 64)
    (least : 0x80 ≤ code) (most : code < 0x800) :
    encodeChar (Char.ofNat code) = [byte] ++ trails 1 code := by
  rw [encodeChar_ofNat (Or.inl (by omega)), if_neg (by omega), if_pos most, ← first,
    UInt8.ofNat_toNat]
  rfl

/-- Characters below `0x10000` are a leading byte and two trails. -/
theorem encodeChar_three {byte : UInt8} {code : Nat} (first : byte.toNat = 0xE0 + code / 4096)
    (least : 0x800 ≤ code) (most : code < 0x10000) (valid : code < 0xD800 ∨ 0xDFFF < code) :
    encodeChar (Char.ofNat code) = [byte] ++ trails 2 code := by
  have isValid : code.isValidChar := valid.imp id fun above => ⟨above, by omega⟩
  rw [encodeChar_ofNat isValid, if_neg (by omega), if_neg (by omega), if_pos most, ← first,
    UInt8.ofNat_toNat]
  rfl

/-- All other characters are a leading byte and three trails. -/
theorem encodeChar_four {byte : UInt8} {code : Nat} (first : byte.toNat = 0xF0 + code / 262144)
    (least : 0x10000 ≤ code) (most : code < 0x110000) :
    encodeChar (Char.ofNat code) = [byte] ++ trails 3 code := by
  rw [encodeChar_ofNat (Or.inr ⟨by omega, most⟩), if_neg (by omega), if_neg (by omega),
    if_neg (by omega), ← first, UInt8.ofNat_toNat]
  rfl

/-- The sequences that a leading byte begins. The bounds on the second byte leave out the code
points that have fewer bytes, the surrogates, and those above U+10FFFF. -/
inductive Leads (byte : Nat) : Sequence → Prop
  | two {bits : Nat} (first : byte = 0xC0 + bits) (least : 2 ≤ bits) (most : bits < 0x20) :
      Leads byte ⟨1, 0x80, 0xBF, bits⟩
  | three {low high bits : Nat} (first : byte = 0xE0 + bits) (most : bits < 0x10)
      (atLeast : 0x80 ≤ low) (atMost : high ≤ 0xBF) (notTwo : bits = 0 → 0xA0 ≤ low)
      (noSurrogate : bits = 0xD → high ≤ 0x9F) : Leads byte ⟨2, low, high, bits⟩
  | four {low high bits : Nat} (first : byte = 0xF0 + bits) (most : bits ≤ 4)
      (atLeast : 0x80 ≤ low) (atMost : high ≤ 0xBF) (notThree : bits = 0 → 0x90 ≤ low)
      (noExcess : bits = 4 → high ≤ 0x8F) : Leads byte ⟨3, low, high, bits⟩

/-- What the decoder expects after a byte is what the byte leads. -/
theorem leads_of_lead? {byte : Nat} {sequence : Sequence} (begins : lead? byte = some sequence) :
    Leads byte sequence := by
  unfold lead? at begins
  split_ifs at begins <;> cases begins
  · apply Leads.two <;> omega
  · apply Leads.three <;> omega
  · apply Leads.three <;> omega
  · apply Leads.three <;> omega
  · apply Leads.four <;> omega
  · apply Leads.four <;> omega
  · apply Leads.four <;> omega

/-- A leading byte begins its sequence. -/
theorem Leads.begun {byte : UInt8} {sequence : Sequence} (leads : Leads byte.toNat sequence) :
    Begun [byte] sequence := by
  cases leads with
  | two first least most =>
      refine ⟨Nat.succ_pos _, Nat.le_refl _, Nat.le_refl _, fun code upper above below => ?_⟩
      simp only [Nat.reduceSub, upperBits] at upper above below
      apply encodeChar_two <;> omega
  | three first most atLeast atMost notTwo noSurrogate =>
      refine ⟨Nat.succ_pos _, atLeast, atMost, fun code upper above below => ?_⟩
      simp only [Nat.reduceSub, upperBits] at upper above below
      apply encodeChar_three <;> omega
  | four first most atLeast atMost notThree noExcess =>
      refine ⟨Nat.succ_pos _, atLeast, atMost, fun code upper above below => ?_⟩
      simp only [Nat.reduceSub, upperBits] at upper above below
      apply encodeChar_four <;> omega

/-- The bytes since the last character boundary, for a state of the decoder. -/
inductive Awaits : Bytes → Option Sequence → Prop
  | boundary : Awaits [] none
  | inside {seen : Bytes} {sequence : Sequence} (begun : Begun seen sequence) :
      Awaits seen (some sequence)

theorem encodeChar_ascii {byte : UInt8} (ascii : byte.toNat < 0x80) :
    encodeChar (Char.ofNat byte.toNat) = [byte] := by
  rw [encodeChar_ofNat (Or.inl (by omega)), if_pos ascii, UInt8.ofNat_toNat]

/-- At a character boundary, an ASCII byte is a character, and any other byte begins a sequence or
is a gap. -/
theorem start_cases (byte : UInt8) :
    (byte.toNat < 0x80 ∧ start byte = (none, [some (Char.ofNat byte.toNat)])) ∨
      0x80 ≤ byte.toNat ∧
        ((∃ sequence, start byte = (some sequence, []) ∧ Begun [byte] sequence) ∨
          start byte = (none, [none])) := by
  rw [start]
  by_cases ascii : byte.toNat < 0x80
  · exact Or.inl ⟨ascii, if_pos ascii⟩
  · rw [if_neg ascii]
    refine Or.inr ⟨Nat.not_lt.mp ascii, ?_⟩
    cases begins : lead? byte.toNat with
    | none => exact Or.inr rfl
    | some sequence => exact Or.inl ⟨sequence, rfl, (leads_of_lead? begins).begun⟩

/-- Inside a sequence, a byte within the bounds is no ASCII byte and completes or continues the
sequence; any other byte leaves a gap and is read at a character boundary. -/
theorem resume_cases {seen : Bytes} {sequence : Sequence} (begun : Begun seen sequence)
    (byte : UInt8) :
    (0x80 ≤ byte.toNat ∧
        ((∃ char, resume sequence byte = (none, [some char]) ∧
            encodeChar char = seen ++ [byte]) ∨
          ∃ next, resume sequence byte = (some next, []) ∧ Begun (seen ++ [byte]) next)) ∨
      resume sequence byte = ((start byte).1, none :: (start byte).2) := by
  obtain ⟨missing, low, high, bits⟩ := sequence
  have least : 0x80 ≤ low := begun.low
  rw [resume]
  by_cases within : low ≤ byte.toNat ∧ byte.toNat ≤ high
  · rw [if_pos within]
    refine Or.inl ⟨Nat.le_trans least within.1, ?_⟩
    cases missing with
    | zero => exact (Nat.lt_irrefl 0 begun.unfinished).elim
    | succ missing =>
        cases missing with
        | zero => exact Or.inl ⟨_, if_pos (Nat.le_refl 1), begun.last within.1 within.2⟩
        | succ missing =>
            have more : ¬ missing + 2 ≤ 1 := by omega
            exact Or.inr ⟨_, if_neg more, begun.earlier within.1 within.2⟩
  · exact Or.inr (if_neg within)

/-- A byte that leaves no gap completes a character or continues a sequence. -/
theorem step_cases {seen : Bytes} {state : Option Sequence} (awaits : Awaits seen state)
    {byte : UInt8} (noGap : none ∉ (step state byte).2) :
    (∃ char, step state byte = (none, [some char]) ∧ encodeChar char = seen ++ [byte]) ∨
      ∃ sequence, step state byte = (some sequence, []) ∧ Begun (seen ++ [byte]) sequence := by
  cases awaits with
  | boundary =>
      rw [step] at noGap ⊢
      rcases start_cases byte with ⟨ascii, stepped⟩ | ⟨-, begins | stepped⟩
      · exact Or.inl ⟨_, stepped, encodeChar_ascii ascii⟩
      · exact Or.inr begins
      · rw [stepped] at noGap
        exact (noGap List.mem_cons_self).elim
  | inside begun =>
      rw [step] at noGap ⊢
      rcases resume_cases begun byte with ⟨-, within⟩ | stepped
      · exact within
      · rw [stepped] at noGap
        exact (noGap List.mem_cons_self).elim

/-- Pieces are a whole text exactly if there is no gap among them. -/
theorem whole?_eq_some_iff {found : List Piece} {text : Text} :
    whole? found = some text ↔ found = text.map some := by
  induction found generalizing text with
  | nil => cases text <;> simp [whole?]
  | cons piece found ih =>
      cases piece with
      | none => cases text <;> simp [whole?]
      | some char =>
          rw [whole?, Option.map_eq_some_iff]
          constructor
          · intro read
            obtain ⟨others, read, rfl⟩ := read
            rw [ih.mp read, List.map_cons]
          · intro same
            obtain ⟨first, others, rfl, same, tail⟩ := List.map_eq_cons_iff.mp same.symm
            cases same
            exact ⟨others, ih.mpr tail.symm, rfl⟩

/-- Bytes that yield a text from some state complete the bytes of that text. -/
theorem append_eq_encode {seen bytes : Bytes} {state : Option Sequence}
    (awaits : Awaits seen state) {text : Text} (yields : pieces state bytes = text.map some) :
    seen ++ bytes = encode text := by
  induction bytes generalizing seen state text with
  | nil =>
      cases awaits with
      | boundary =>
          obtain rfl := List.map_eq_nil_iff.mp yields.symm
          rfl
      | inside begun =>
          rw [pieces] at yields
          cases text <;> cases yields
  | cons byte rest ih =>
      rw [pieces] at yields
      have noGap : none ∉ (step state byte).2 := by
        intro gap
        have within := List.mem_append_left (pieces (step state byte).1 rest) gap
        rw [yields] at within
        obtain ⟨char, -, same⟩ := List.mem_map.mp within
        cases same
      rcases step_cases awaits noGap with ⟨char, stepped, complete⟩ | ⟨sequence, stepped, begun⟩
      · rw [stepped] at yields
        obtain ⟨first, others, rfl, same, tail⟩ := List.map_eq_cons_iff.mp yields.symm
        cases same
        rw [encode_cons, complete, ← ih .boundary tail.symm, List.append_assoc]
        rfl
      · rw [stepped] at yields
        rw [← ih (.inside begun) yields, List.append_assoc, List.singleton_append]

/-- **Strict reading undoes writing** and accepts nothing else: bytes are those of a text exactly
if they are read as that text. -/
theorem decode?_eq_some_iff {bytes : Bytes} {text : Text} :
    decode? bytes = some text ↔ bytes = encode text := by
  rw [decode?, whole?_eq_some_iff]
  constructor
  · intro yields
    exact append_eq_encode .boundary yields
  · rintro rfl
    exact pieces_encode text

end Utf8

end AssemblyDigest
