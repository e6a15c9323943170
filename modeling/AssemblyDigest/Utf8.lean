import AssemblyDigest.Text

/-! # UTF-8

Bytes are read by one decoder that yields a character for every well-formed sequence and
a gap for every maximal run of bytes that begins a sequence which is then not completed.
The strict reading refuses a gap, the lossy reading puts U+FFFD in its place. Because an
ASCII byte never continues a sequence, the decoder is back at a character boundary after
each of them.
-/

namespace AssemblyDigest

namespace Utf8

/-- The bytes of a character. -/
def encodeChar (char : Char) : Bytes :=
  let code := char.toNat
  let trail (shift : Nat) : UInt8 := UInt8.ofNat (0x80 + (code >>> shift) % 64)
  if code < 0x80 then [UInt8.ofNat code]
  else if code < 0x800 then [UInt8.ofNat (0xC0 + code >>> 6), trail 0]
  else if code < 0x10000 then [UInt8.ofNat (0xE0 + code >>> 12), trail 6, trail 0]
  else [UInt8.ofNat (0xF0 + code >>> 18), trail 12, trail 6, trail 0]

/-- The bytes of a text. -/
def encode (text : Text) : Bytes :=
  text.flatMap encodeChar

/-- A sequence that has begun: how many bytes it still needs, the bounds on the next of
them, and the bits read so far. -/
structure Sequence where
  missing : Nat
  low : Nat
  high : Nat
  bits : Nat
  deriving DecidableEq, Repr

/-- The sequence that a leading byte begins. The bounds on the second byte exclude
overlong forms, surrogates and values above U+10FFFF. -/
def lead? (byte : Nat) : Option Sequence :=
  if byte < 0xC2 then none
  else if byte < 0xE0 then some ⟨1, 0x80, 0xBF, byte - 0xC0⟩
  else if byte = 0xE0 then some ⟨2, 0xA0, 0xBF, 0⟩
  else if byte = 0xED then some ⟨2, 0x80, 0x9F, 0xD⟩
  else if byte < 0xF0 then some ⟨2, 0x80, 0xBF, byte - 0xE0⟩
  else if byte = 0xF0 then some ⟨3, 0x90, 0xBF, 0⟩
  else if byte < 0xF4 then some ⟨3, 0x80, 0xBF, byte - 0xF0⟩
  else if byte = 0xF4 then some ⟨3, 0x80, 0x8F, 4⟩
  else none

/-- What the decoder yields: a character, or a gap where bytes form none. -/
abbrev Piece := Option Char

/-- Reads a byte at a character boundary. -/
def start (byte : UInt8) : Option Sequence × List Piece :=
  if byte.toNat < 0x80 then (none, [some (Char.ofNat byte.toNat)])
  else
    match lead? byte.toNat with
    | some sequence => (some sequence, [])
    | none => (none, [none])

/-- Reads a byte inside a sequence. A byte out of bounds ends the sequence with a gap and
is then read at a character boundary. -/
def resume (sequence : Sequence) (byte : UInt8) : Option Sequence × List Piece :=
  if sequence.low ≤ byte.toNat ∧ byte.toNat ≤ sequence.high then
    let bits := sequence.bits * 64 + byte.toNat % 64
    if sequence.missing ≤ 1 then (none, [some (Char.ofNat bits)])
    else (some ⟨sequence.missing - 1, 0x80, 0xBF, bits⟩, [])
  else ((start byte).1, none :: (start byte).2)

/-- Reads a byte in either state. -/
def step : Option Sequence → UInt8 → Option Sequence × List Piece
  | none, byte => start byte
  | some sequence, byte => resume sequence byte

/-- What the bytes yield from a given state; an unfinished sequence at the end is a gap. -/
def pieces : Option Sequence → Bytes → List Piece
  | none, [] => []
  | some _, [] => [none]
  | state, byte :: rest => (step state byte).2 ++ pieces (step state byte).1 rest

/-- The characters of pieces without a gap. -/
def whole? : List Piece → Option Text
  | [] => some []
  | some char :: rest => (whole? rest).map (char :: ·)
  | none :: _ => none

/-- The text of well-formed bytes. -/
def decode? (bytes : Bytes) : Option Text :=
  whole? (pieces none bytes)

/-- The text of any bytes, with U+FFFD for each gap. -/
def decodeLossy (bytes : Bytes) : Text :=
  (pieces none bytes).map (·.getD '\uFFFD')

end Utf8

/-- The number of bytes of a text in UTF-8. -/
def Text.byteLength (text : Text) : Nat :=
  (Utf8.encode text).length

end AssemblyDigest
