import AssemblyDigest.Proofs.Text.Layout
import AssemblyDigest.Proofs.Utf8.Decode
import Mathlib.Data.List.Count

/-! # Invalid bytes stay local

An ASCII byte is never part of a longer sequence: whatever stands before it, it is read as its
character, and the decoder is at a character boundary after it
(`AssemblyDigest.Utf8.decodeLossy_append_ascii`). Conversely no other bytes are read as an ASCII
character, so the ASCII characters of a text are the ASCII bytes of its source, in order
(`AssemblyDigest.Utf8.filter_ascii_decodeLossy`). Bytes may therefore be cut at their line feeds
before or after they are read (`AssemblyDigest.Utf8.lines_decodeLossy`).
-/

namespace AssemblyDigest

namespace Utf8

/-- A byte that is a character of its own. -/
def IsAscii (byte : UInt8) : Prop :=
  byte.toNat < 0x80
  deriving Decidable

/-- The character of a byte that is one of its own. -/
def charOf (byte : UInt8) : Char :=
  Char.ofNat byte.toNat

/-- A piece that is no ASCII character. -/
def NotAscii (piece : Piece) : Prop :=
  ∀ char ∈ piece, 0x80 ≤ char.toNat

theorem notAscii_none : NotAscii none := nofun

/-- The end of the bytes yields no ASCII character. -/
theorem notAscii_of_mem_pieces_nil {state : Option Sequence} :
    ∀ piece ∈ pieces state [], NotAscii piece := by
  intro piece member
  cases state with
  | none => exact (List.not_mem_nil member).elim
  | some sequence =>
      obtain rfl := List.mem_singleton.mp member
      exact notAscii_none

/-- A character that is completed by a byte above the ASCII range is no ASCII character. -/
theorem notAscii_of_encodeChar {char : Char} {seen : Bytes} {byte : UInt8}
    (high : 0x80 ≤ byte.toNat) (bytes : encodeChar char = seen ++ [byte]) :
    NotAscii (some char) := by
  intro found member
  obtain rfl := Option.mem_some.mp member
  apply Nat.not_lt.mp
  intro ascii
  rw [encodeChar_eq, if_pos ascii] at bytes
  obtain ⟨-, last⟩ := List.append_inj' (List.nil_append _ |>.trans bytes) rfl
  obtain rfl := List.singleton_inj.mp last
  rw [UInt8.toNat_ofNat'] at high
  omega

/-- A byte above the ASCII range, read at a character boundary, yields no ASCII character. -/
theorem start_high {byte : UInt8} (high : 0x80 ≤ byte.toNat) :
    (∃ seen, Awaits seen (start byte).1) ∧ ∀ piece ∈ (start byte).2, NotAscii piece := by
  rcases start_cases byte with ⟨ascii, -⟩ | ⟨-, ⟨sequence, stepped, begun⟩ | stepped⟩
  · omega
  · rw [stepped]
    exact ⟨⟨_, .inside begun⟩, fun piece member => (List.not_mem_nil member).elim⟩
  · rw [stepped]
    refine ⟨⟨_, .boundary⟩, fun piece member => ?_⟩
    obtain rfl := List.mem_singleton.mp member
    exact notAscii_none

/-- A byte above the ASCII range yields no ASCII character in any state. -/
theorem step_high {seen : Bytes} {state : Option Sequence} (awaits : Awaits seen state)
    {byte : UInt8} (high : 0x80 ≤ byte.toNat) :
    (∃ seen, Awaits seen (step state byte).1) ∧ ∀ piece ∈ (step state byte).2, NotAscii piece := by
  cases awaits with
  | boundary => exact start_high high
  | inside begun =>
      rw [step]
      rcases resume_cases begun byte with
        ⟨-, ⟨char, stepped, bytes⟩ | ⟨next, stepped, begun⟩⟩ | stepped
      · rw [stepped]
        refine ⟨⟨_, .boundary⟩, fun piece member => ?_⟩
        obtain rfl := List.mem_singleton.mp member
        exact notAscii_of_encodeChar high bytes
      · rw [stepped]
        exact ⟨⟨_, .inside begun⟩, fun piece member => (List.not_mem_nil member).elim⟩
      · rw [stepped]
        refine ⟨(start_high high).1, fun piece member => ?_⟩
        rcases List.mem_cons.mp member with rfl | member
        · exact notAscii_none
        · exact (start_high high).2 piece member

/-- An ASCII byte ends an unfinished sequence and yields its character. -/
theorem step_ascii {seen : Bytes} {state : Option Sequence} (awaits : Awaits seen state)
    {byte : UInt8} (ascii : IsAscii byte) :
    step state byte = (none, pieces state [] ++ [some (charOf byte)]) := by
  have started : start byte = (none, [some (charOf byte)]) := if_pos ascii
  cases awaits with
  | boundary => exact started
  | inside begun =>
      rw [step]
      rcases resume_cases begun byte with ⟨high, -⟩ | stepped
      · exact (Nat.not_lt.mpr high ascii).elim
      · rw [stepped, started]
        rfl

/-- Every byte leaves the decoder at a character boundary or inside a sequence that has begun. -/
theorem exists_awaits_step {seen : Bytes} {state : Option Sequence} (awaits : Awaits seen state)
    (byte : UInt8) : ∃ next, Awaits next (step state byte).1 := by
  by_cases ascii : IsAscii byte
  · rw [step_ascii awaits ascii]
    exact ⟨_, .boundary⟩
  · exact (step_high awaits (Nat.not_lt.mp ascii)).1

/-- A byte at the end yields a piece. -/
theorem pieces_singleton_ne_nil {seen : Bytes} {state : Option Sequence}
    (awaits : Awaits seen state) (byte : UInt8) : pieces state [byte] ≠ [] := by
  rw [pieces]
  cases awaits with
  | boundary =>
      rw [step]
      rcases start_cases byte with ⟨-, stepped⟩ | ⟨-, ⟨sequence, stepped, -⟩ | stepped⟩
      all_goals
        rw [stepped]
        exact List.cons_ne_nil _ _
  | inside begun =>
      rw [step]
      rcases resume_cases begun byte with
        ⟨-, ⟨char, stepped, -⟩ | ⟨next, stepped, -⟩⟩ | stepped
      all_goals
        rw [stepped]
        exact List.cons_ne_nil _ _

/-- The bytes before and after an ASCII byte are read independently. -/
theorem pieces_append_ascii {byte : UInt8} (ascii : IsAscii byte) (before after : Bytes)
    {seen : Bytes} {state : Option Sequence} (awaits : Awaits seen state) :
    pieces state (before ++ byte :: after) =
      pieces state before ++ some (charOf byte) :: pieces none after := by
  induction before generalizing seen state with
  | nil =>
      rw [List.nil_append, pieces, step_ascii awaits ascii, List.append_assoc,
        List.singleton_append]
  | cons first before ih =>
      obtain ⟨next, later⟩ := exists_awaits_step awaits first
      rw [List.cons_append, pieces, ih later, pieces, List.append_assoc]

/-- **Reading may be cut at an ASCII byte.** -/
theorem decodeLossy_append_ascii {byte : UInt8} (ascii : IsAscii byte) (before after : Bytes) :
    decodeLossy (before ++ byte :: after) =
      decodeLossy before ++ charOf byte :: decodeLossy after := by
  rw [decodeLossy, pieces_append_ascii ascii before after .boundary, List.map_append,
    List.map_cons]
  rfl

theorem toNat_charOf (byte : UInt8) : (charOf byte).toNat = byte.toNat := by
  have small := byte.toNat_lt
  have valid : byte.toNat.isValidChar := Or.inl (by omega)
  rw [charOf, Char.ofNat, dif_pos valid]
  rfl

theorem isAscii_charOf {byte : UInt8} (ascii : IsAscii byte) :
    decide ((charOf byte).toNat < 0x80) = true := by
  rw [toNat_charOf]
  exact decide_eq_true ascii

theorem charOf_injective : Function.Injective charOf := by
  intro first second same
  apply UInt8.toNat_inj.mp
  rw [← toNat_charOf first, same, toNat_charOf second]

/-- The text of pieces, with U+FFFD for each gap. -/
def textOf (found : List Piece) : Text :=
  found.map (·.getD '\uFFFD')

/-- Pieces other than ASCII leave no ASCII characters. -/
theorem filter_textOf_eq_nil {found : List Piece} (notAscii : ∀ piece ∈ found, NotAscii piece) :
    (textOf found).filter (·.toNat < 0x80) = [] := by
  apply List.filter_eq_nil_iff.mpr
  intro char member
  obtain ⟨piece, listed, rfl⟩ := List.mem_map.mp member
  cases piece with
  | none => decide
  | some char =>
      have high := notAscii _ listed char rfl
      simpa using high

theorem textOf_append (first second : List Piece) :
    textOf (first ++ second) = textOf first ++ textOf second :=
  List.map_append

/-- From any state, the ASCII characters that are read are the ASCII bytes, in order. -/
theorem filter_textOf_pieces (bytes : Bytes) {seen : Bytes} {state : Option Sequence}
    (awaits : Awaits seen state) :
    (textOf (pieces state bytes)).filter (·.toNat < 0x80) =
      (bytes.filter (fun byte => IsAscii byte)).map charOf := by
  induction bytes generalizing seen state with
  | nil => exact filter_textOf_eq_nil notAscii_of_mem_pieces_nil
  | cons byte rest ih =>
      obtain ⟨next, later⟩ := exists_awaits_step awaits byte
      rw [pieces, textOf_append, List.filter_append, ih later]
      by_cases ascii : IsAscii byte
      · have first : (textOf [some (charOf byte)]).filter (·.toNat < 0x80) = [charOf byte] :=
          List.filter_cons_of_pos (isAscii_charOf ascii)
        have kept : (byte :: rest).filter (fun byte => IsAscii byte) =
            byte :: rest.filter (fun byte => IsAscii byte) :=
          List.filter_cons_of_pos (decide_eq_true ascii)
        rw [step_ascii awaits ascii, textOf_append, List.filter_append,
          filter_textOf_eq_nil notAscii_of_mem_pieces_nil, first, kept]
        rfl
      · rw [filter_textOf_eq_nil (step_high awaits (Nat.not_lt.mp ascii)).2,
          List.filter_cons_of_neg (by simpa using ascii), List.nil_append]

/-- **The ASCII characters of a text are the ASCII bytes of its source**, in order. -/
theorem filter_ascii_decodeLossy (bytes : Bytes) :
    (decodeLossy bytes).filter (·.toNat < 0x80) =
      (bytes.filter (fun byte => IsAscii byte)).map charOf :=
  filter_textOf_pieces bytes .boundary

/-- An ASCII character occurs in a text as often as its byte in the source. -/
theorem count_decodeLossy {byte : UInt8} (ascii : IsAscii byte) (bytes : Bytes) :
    (decodeLossy bytes).count (charOf byte) = bytes.count byte := by
  calc (decodeLossy bytes).count (charOf byte)
      = ((decodeLossy bytes).filter (·.toNat < 0x80)).count (charOf byte) := by
        rw [List.count_filter]
        exact isAscii_charOf ascii
    _ = ((bytes.filter (fun byte => IsAscii byte)).map charOf).count (charOf byte) := by
        rw [filter_ascii_decodeLossy]
    _ = (bytes.filter (fun byte => IsAscii byte)).count byte :=
        List.count_map_of_injective _ _ charOf_injective _
    _ = bytes.count byte := List.count_filter (decide_eq_true ascii)

/-- An ASCII character is read exactly if its byte is there. -/
theorem mem_decodeLossy_iff {byte : UInt8} (ascii : IsAscii byte) (bytes : Bytes) :
    charOf byte ∈ decodeLossy bytes ↔ byte ∈ bytes := by
  rw [← List.count_pos_iff, count_decodeLossy ascii, List.count_pos_iff]

/-- A last byte above the ASCII range yields a last piece that is no ASCII character. -/
theorem exists_getLast?_pieces {byte : UInt8} (high : 0x80 ≤ byte.toNat) (init : Bytes)
    {seen : Bytes} {state : Option Sequence} (awaits : Awaits seen state) :
    ∃ piece, (pieces state (init ++ [byte])).getLast? = some piece ∧ NotAscii piece := by
  induction init generalizing seen state with
  | nil =>
      have notAscii : ∀ piece ∈ pieces state [byte], NotAscii piece := by
        intro piece member
        rw [pieces] at member
        rcases List.mem_append.mp member with yielded | atEnd
        · exact (step_high awaits high).2 piece yielded
        · exact notAscii_of_mem_pieces_nil piece atEnd
      have nonempty : pieces state [byte] ≠ [] := pieces_singleton_ne_nil awaits byte
      exact ⟨_, List.getLast?_eq_some_getLast nonempty, notAscii _ (List.getLast_mem nonempty)⟩
  | cons first init ih =>
      obtain ⟨next, later⟩ := exists_awaits_step awaits first
      obtain ⟨piece, last, notAscii⟩ := ih later
      refine ⟨piece, ?_, notAscii⟩
      rw [List.cons_append, pieces, List.getLast?_append, last]
      rfl

/-- The last character of a text is ASCII exactly if the last byte of its source is, and then it
is the character of that byte. -/
theorem getLast?_decodeLossy (init : Bytes) (byte : UInt8) :
    (IsAscii byte ∧ (decodeLossy (init ++ [byte])).getLast? = some (charOf byte)) ∨
      ¬ IsAscii byte ∧
        ∃ char, (decodeLossy (init ++ [byte])).getLast? = some char ∧ 0x80 ≤ char.toNat := by
  by_cases ascii : IsAscii byte
  · refine Or.inl ⟨ascii, ?_⟩
    rw [decodeLossy_append_ascii ascii]
    exact List.getLast?_concat
  · obtain ⟨piece, last, notAscii⟩ := exists_getLast?_pieces (Nat.not_lt.mp ascii) init .boundary
    refine Or.inr ⟨ascii, piece.getD '\uFFFD', ?_, ?_⟩
    · rw [decodeLossy, List.getLast?_map, last]
      rfl
    · cases piece with
      | none => decide
      | some char => exact notAscii char rfl

/-- Nothing is read only from no bytes. -/
theorem decodeLossy_eq_nil_iff {bytes : Bytes} : decodeLossy bytes = [] ↔ bytes = [] := by
  constructor
  · intro empty
    by_contra present
    rw [← List.dropLast_concat_getLast present] at empty
    rcases getLast?_decodeLossy bytes.dropLast (bytes.getLast present) with
      ⟨-, last⟩ | ⟨-, char, last, -⟩
    all_goals
      rw [empty] at last
      cases last
  · rintro rfl
    rfl

/-- An ASCII character may be dropped from the end before or after reading. -/
theorem dropEnd_decodeLossy {byte : UInt8} (ascii : IsAscii byte) (bytes : Bytes) :
    dropEnd (charOf byte) (decodeLossy bytes) = decodeLossy (dropEnd byte bytes) := by
  by_cases empty : bytes = []
  · rw [empty]
    rfl
  · obtain ⟨init, last, rfl⟩ : ∃ init last, bytes = init ++ [last] :=
      ⟨_, _, (List.dropLast_concat_getLast empty).symm⟩
    by_cases same : last = byte
    · rw [same, dropEnd_append_mark, decodeLossy_append_ascii ascii]
      exact dropEnd_append_mark _ _
    · have other : (init ++ [last]).getLast? ≠ some byte := by
        rw [List.getLast?_concat]
        exact fun equal => same (Option.some.inj equal)
      rw [dropEnd_of_getLast?_ne other]
      apply dropEnd_of_getLast?_ne
      intro ends
      rcases getLast?_decodeLossy init last with ⟨-, found⟩ | ⟨-, char, found, high⟩
      · exact same (charOf_injective (Option.some.inj (found.symm.trans ends)))
      · obtain rfl := Option.some.inj (found.symm.trans ends)
        rw [toNat_charOf] at high
        exact Nat.not_lt.mpr high ascii

/-- Bytes may be cut at an ASCII byte before or after they are read. -/
theorem splitOn_decodeLossy {byte : UInt8} (ascii : IsAscii byte) (bytes : Bytes) :
    Text.splitOn (charOf byte) (decodeLossy bytes) = (bytes.splitOn byte).map decodeLossy := by
  induction size : bytes.length using Nat.strongRecOn generalizing bytes with
  | ind size ih =>
      subst size
      by_cases present : byte ∈ bytes
      · obtain ⟨before, after, rfl, absent⟩ := List.eq_append_cons_of_mem present
        have absentToo : charOf byte ∉ decodeLossy before := fun member =>
          absent ((mem_decodeLossy_iff ascii before).mp member)
        have shorter : after.length < (before ++ byte :: after).length := by
          rw [List.length_append, List.length_cons]
          omega
        rw [decodeLossy_append_ascii ascii, Text.splitOn_append_cons,
          Text.splitOn_of_not_mem absentToo, ih _ shorter after rfl,
          List.splitOn_append_cons_self_of_not_mem absent]
        rfl
      · have absent : charOf byte ∉ decodeLossy bytes := fun member =>
          present ((mem_decodeLossy_iff ascii bytes).mp member)
        rw [Text.splitOn_of_not_mem absent, List.splitOn_eq_singleton present]
        rfl

theorem isAscii_feed : IsAscii 0x0A := by decide

theorem isAscii_return : IsAscii 0x0D := by decide

/-- The lines of bytes, cut as the lines of a text are. -/
def linesOf (bytes : Bytes) : List Bytes :=
  Text.linesOfPieces 0x0D (bytes.splitOn 0x0A)

/-- Cutting lines from pieces and reading them may be exchanged. -/
theorem linesOfPieces_map_decodeLossy {byte : UInt8} (ascii : IsAscii byte)
    (found : List Bytes) :
    Text.linesOfPieces (charOf byte) (found.map decodeLossy) =
      (Text.linesOfPieces byte found).map decodeLossy := by
  have ended : (found.map decodeLossy).dropLast.map (dropEnd (charOf byte)) =
      (found.dropLast.map (dropEnd byte)).map decodeLossy := by
    rw [← List.map_dropLast, List.map_map, List.map_map]
    exact List.map_congr_left fun line _ => dropEnd_decodeLossy ascii line
  have present : ((fun line : Text => decide (line ≠ [])) ∘ decodeLossy) =
      fun line => decide (line ≠ []) :=
    funext fun _ => decide_eq_decide.mpr (not_congr decodeLossy_eq_nil_iff)
  have last : (found.map decodeLossy).getLast?.toList.filter (· ≠ []) =
      (found.getLast?.toList.filter (· ≠ [])).map decodeLossy := by
    rw [List.getLast?_map, Option.toList_map, List.filter_map, present]
  rw [Text.linesOfPieces, Text.linesOfPieces, ended, last, List.map_append]

/-- **Bytes are read line by line**: the lines of a text are the texts of the lines of its
source. -/
theorem lines_decodeLossy (bytes : Bytes) :
    Text.lines (decodeLossy bytes) = (linesOf bytes).map decodeLossy := by
  have pieces : Text.splitOn '\n' (decodeLossy bytes) = (bytes.splitOn 0x0A).map decodeLossy :=
    splitOn_decodeLossy isAscii_feed bytes
  rw [Text.lines_eq_linesOfPieces, pieces]
  exact linesOfPieces_map_decodeLossy isAscii_return _

end Utf8

end AssemblyDigest
