import AssemblyDigest.Utf8

/-! # Reading what was written

The decoder yields a character for the bytes of that character and is then back at a
character boundary. Hence the bytes of a text yield the text, and different texts have
different bytes (`AssemblyDigest.Utf8.encode_injective`).
-/

namespace AssemblyDigest

namespace Utf8

/-- The byte that continues a sequence with six more bits. -/
def trailByte (bits : Nat) : UInt8 :=
  UInt8.ofNat (0x80 + bits % 64)

theorem toNat_trailByte (bits : Nat) : (trailByte bits).toNat = 0x80 + bits % 64 := by
  simp only [trailByte, UInt8.toNat_ofNat']
  omega

/-- The last trailing byte of a sequence yields the character. -/
theorem pieces_last {low high upper bits : Nat} (above : low ≤ 0x80 + bits % 64)
    (below : 0x80 + bits % 64 ≤ high) (rest : Bytes) :
    pieces (some ⟨1, low, high, upper⟩) (trailByte bits :: rest) =
      some (Char.ofNat (upper * 64 + bits % 64)) :: pieces none rest := by
  have added : (0x80 + bits % 64) % 64 = bits % 64 := by omega
  simp only [pieces, step, resume, toNat_trailByte, above, below, and_self, ↓reduceIte, added,
    Nat.le_refl, List.singleton_append]

/-- An earlier trailing byte adds its bits and leaves one byte less missing. -/
theorem pieces_earlier {missing low high upper bits : Nat} (above : low ≤ 0x80 + bits % 64)
    (below : 0x80 + bits % 64 ≤ high) (rest : Bytes) :
    pieces (some ⟨missing + 2, low, high, upper⟩) (trailByte bits :: rest) =
      pieces (some ⟨missing + 1, 0x80, 0xBF, upper * 64 + bits % 64⟩) rest := by
  have added : (0x80 + bits % 64) % 64 = bits % 64 := by omega
  have more : ¬ missing + 2 ≤ 1 := by omega
  simp only [pieces, step, resume, toNat_trailByte, above, below, and_self, ↓reduceIte, added,
    more, Nat.add_one_sub_one, List.nil_append]

/-- An ASCII byte yields its character. -/
theorem pieces_ascii {code : Nat} (ascii : code < 0x80) (rest : Bytes) :
    pieces none (UInt8.ofNat code :: rest) = some (Char.ofNat code) :: pieces none rest := by
  have value : (UInt8.ofNat code).toNat = code := by
    simp only [UInt8.toNat_ofNat']
    omega
  simp only [pieces, step, start, value, ascii, ↓reduceIte, List.singleton_append]

/-- A leading byte begins its sequence. -/
theorem pieces_lead {byte : Nat} {sequence : Sequence} (small : byte < 0x100)
    (large : 0x80 ≤ byte) (begins : lead? byte = some sequence) (rest : Bytes) :
    pieces none (UInt8.ofNat byte :: rest) = pieces (some sequence) rest := by
  have value : (UInt8.ofNat byte).toNat = byte := by
    simp only [UInt8.toNat_ofNat']
    omega
  simp only [pieces, step, start, value, Nat.not_lt.mpr large, ↓reduceIte, begins,
    List.nil_append]

/-- The first of two bytes of a character begins a sequence with its upper bits. -/
theorem lead?_two {code : Nat} (low : 0x80 ≤ code) (high : code < 0x800) :
    lead? (0xC0 + code / 64) = some ⟨1, 0x80, 0xBF, code / 64⟩ := by
  unfold lead?
  rw [if_neg (by omega), if_pos (by omega), Nat.add_sub_cancel_left]

/-- The first of three bytes of a character begins a sequence with its upper bits, and the
second byte is within bounds because the character is no surrogate. -/
theorem lead?_three {code : Nat} (low : 0x800 ≤ code) (high : code < 0x10000)
    (valid : code < 0xD800 ∨ 0xDFFF < code) :
    ∃ least most, lead? (0xE0 + code / 4096) = some ⟨2, least, most, code / 4096⟩ ∧
      least ≤ 0x80 + code / 64 % 64 ∧ 0x80 + code / 64 % 64 ≤ most := by
  unfold lead?
  rw [if_neg (by omega), if_neg (by omega)]
  by_cases least : code < 0x1000
  · rw [if_pos (by omega), show code / 4096 = 0 by omega]
    exact ⟨_, _, rfl, by omega, by omega⟩
  · rw [if_neg (by omega)]
    by_cases beforeSurrogates : code / 4096 = 0xD
    · rw [if_pos (by omega), beforeSurrogates]
      exact ⟨_, _, rfl, by omega, by omega⟩
    · rw [if_neg (by omega), if_pos (by omega), Nat.add_sub_cancel_left]
      exact ⟨_, _, rfl, by omega, by omega⟩

/-- The first of four bytes of a character begins a sequence with its upper bits, and the
second byte is within bounds because the character is not above U+10FFFF. -/
theorem lead?_four {code : Nat} (low : 0x10000 ≤ code) (high : code < 0x110000) :
    ∃ least most, lead? (0xF0 + code / 262144) = some ⟨3, least, most, code / 262144⟩ ∧
      least ≤ 0x80 + code / 4096 % 64 ∧ 0x80 + code / 4096 % 64 ≤ most := by
  unfold lead?
  rw [if_neg (by omega), if_neg (by omega), if_neg (by omega), if_neg (by omega),
    if_neg (by omega)]
  by_cases least : code < 0x40000
  · rw [if_pos (by omega), show code / 262144 = 0 by omega]
    exact ⟨_, _, rfl, by omega, by omega⟩
  · rw [if_neg (by omega)]
    by_cases most : code < 0x100000
    · rw [if_pos (by omega), Nat.add_sub_cancel_left]
      exact ⟨_, _, rfl, by omega, by omega⟩
    · rw [if_neg (by omega), if_pos (by omega), show code / 262144 = 4 by omega]
      exact ⟨_, _, rfl, by omega, by omega⟩

/-- The bytes of a character, by the size of its code point. -/
theorem encodeChar_eq (char : Char) :
    encodeChar char =
      if char.toNat < 0x80 then [UInt8.ofNat char.toNat]
      else if char.toNat < 0x800 then
        [UInt8.ofNat (0xC0 + char.toNat / 64), trailByte char.toNat]
      else if char.toNat < 0x10000 then
        [UInt8.ofNat (0xE0 + char.toNat / 4096), trailByte (char.toNat / 64),
          trailByte char.toNat]
      else
        [UInt8.ofNat (0xF0 + char.toNat / 262144), trailByte (char.toNat / 4096),
          trailByte (char.toNat / 64), trailByte char.toNat] := by
  simp only [encodeChar, trailByte, Nat.shiftRight_eq_div_pow, Nat.reducePow, Nat.div_one]

/-- The bytes of a character are those that the library gives it. -/
theorem encodeChar_eq_utf8EncodeChar (char : Char) :
    encodeChar char = String.utf8EncodeChar char := by
  have valid : char.toNat < 0xD800 ∨ 0xDFFF < char.toNat ∧ char.toNat < 0x110000 := char.valid
  have value : char.val.toNat = char.toNat := rfl
  simp only [encodeChar_eq, String.utf8EncodeChar, value]
  generalize char.toNat = code at valid
  split
  · next ascii => rw [if_pos (by omega)]
  · split
    · next two =>
        rw [if_neg (by omega), if_pos (by omega), trailByte, Nat.add_comm 0xC0, Nat.add_comm 0x80,
          show code / 64 % 32 = code / 64 by omega]
    · split
      · next three =>
          rw [if_neg (by omega), if_neg (by omega), if_pos (by omega), trailByte, trailByte,
            Nat.add_comm 0xE0, Nat.add_comm 0x80, Nat.add_comm 0x80,
            show code / 4096 % 16 = code / 4096 by omega]
      · rw [if_neg (by omega), if_neg (by omega), if_neg (by omega), trailByte, trailByte,
          trailByte, Nat.add_comm 0xF0, Nat.add_comm 0x80, Nat.add_comm 0x80, Nat.add_comm 0x80,
          show code / 262144 % 8 = code / 262144 by omega]

/-- The bytes of a character yield it. -/
theorem pieces_encodeChar (char : Char) (rest : Bytes) :
    pieces none (encodeChar char ++ rest) = some char :: pieces none rest := by
  have valid : char.toNat < 0xD800 ∨ 0xDFFF < char.toNat ∧ char.toNat < 0x110000 := char.valid
  have back : Char.ofNat char.toNat = char := Char.ofNat_toNat char
  rw [encodeChar_eq]
  generalize char.toNat = code at valid back
  subst back
  split
  · next ascii => exact pieces_ascii ascii rest
  · split
    · next low high =>
        simp only [List.cons_append, List.nil_append]
        rw [pieces_lead (by omega) (by omega) (lead?_two (by omega) high),
          pieces_last (by omega) (by omega), Nat.div_add_mod']
    · split
      · next low high =>
          obtain ⟨least, most, begins, above, below⟩ :=
            lead?_three (by omega) high (by omega)
          simp only [List.cons_append, List.nil_append]
          rw [pieces_lead (by omega) (by omega) begins,
            pieces_earlier above below,
            pieces_last (by omega) (by omega),
            show (code / 4096 * 64 + code / 64 % 64) * 64 + code % 64 = code by omega]
      · next low =>
          obtain ⟨least, most, begins, above, below⟩ :=
            lead?_four (Nat.not_lt.mp low) (by omega)
          simp only [List.cons_append, List.nil_append]
          rw [pieces_lead (by omega) (by omega) begins,
            pieces_earlier above below,
            pieces_earlier (by omega) (by omega),
            pieces_last (by omega) (by omega),
            show ((code / 262144 * 64 + code / 4096 % 64) * 64 + code / 64 % 64) * 64 +
              code % 64 = code by omega]

theorem encode_nil : encode [] = [] := rfl

theorem encode_cons (char : Char) (text : Text) :
    encode (char :: text) = encodeChar char ++ encode text := by
  rw [encode, encode, List.flatMap_cons]

theorem encode_append (first second : Text) :
    encode (first ++ second) = encode first ++ encode second := by
  rw [encode, encode, encode, List.flatMap_append]

/-- Bytes are valid UTF-8 in the sense of the library if they are those of a text. -/
theorem isValidUTF8_iff {bytes : Bytes} :
    bytes.toByteArray.IsValidUTF8 ↔ ∃ text : Text, bytes = encode text := by
  have encodes : ∀ text : Text, text.utf8Encode = (encode text).toByteArray := by
    intro text
    rw [List.utf8Encode, encode, funext encodeChar_eq_utf8EncodeChar]
  constructor
  · rintro ⟨text, same⟩
    refine ⟨text, ?_⟩
    rw [encodes] at same
    have contents := congrArg (fun array => array.data.toList) same
    rwa [List.toList_data_toByteArray, List.toList_data_toByteArray] at contents
  · rintro ⟨text, rfl⟩
    exact ⟨text, (encodes text).symm⟩

/-- The bytes of a text yield its characters. -/
theorem pieces_encode (text : Text) : pieces none (encode text) = text.map some := by
  induction text with
  | nil => rfl
  | cons char text ih => rw [encode_cons, pieces_encodeChar, ih, List.map_cons]

/-- The lossy reading of the bytes of a text is this text. -/
theorem decodeLossy_encode (text : Text) : decodeLossy (encode text) = text := by
  rw [decodeLossy, pieces_encode, List.map_map]
  exact List.map_id text

/-- Different texts have different bytes. -/
theorem encode_injective {first second : Text} (same : encode first = encode second) :
    first = second := by
  have characters : first.map some = second.map some := by
    rw [← pieces_encode, same, pieces_encode]
  exact (List.map_inj_right fun _ _ => Option.some.inj).mp characters

end Utf8

theorem Text.byteLength_append (first second : Text) :
    (first ++ second).byteLength = first.byteLength + second.byteLength := by
  simp only [byteLength, Utf8.encode_append, List.length_append]

theorem Text.byteLength_pos {text : Text} (nonempty : text ≠ []) : 0 < text.byteLength := by
  refine List.length_pos_iff.mpr fun none => nonempty ?_
  exact Utf8.encode_injective (none.trans Utf8.encode_nil.symm)

theorem Text.byteLength_replicate (count : Nat) (char : Char) :
    Text.byteLength (List.replicate count char) = count * Text.byteLength [char] := by
  induction count with
  | zero => rw [Nat.zero_mul]; rfl
  | succ count ih =>
      rw [List.replicate_succ, ← List.singleton_append, Text.byteLength_append, ih, Nat.succ_mul,
        Nat.add_comm]

end AssemblyDigest
