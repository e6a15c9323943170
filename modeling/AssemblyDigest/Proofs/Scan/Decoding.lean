import AssemblyDigest.Proofs.Scan.Workspace
import AssemblyDigest.Proofs.Utf8.Locality

/-! # Reading a source

The text of a source file is read from any bytes. It is exact if the bytes are those of a text,
and otherwise the damage stays in its line: the file has the lines that its bytes have, each read
by itself, with all braces that the bytes of the line hold
(`AssemblyDigest.Scan.readSource_isLocal`).
-/

namespace AssemblyDigest

namespace Scan

/-- The lines of a text hold an ASCII character as often as the lines of its source hold the
byte. -/
theorem map_count_lines {byte : UInt8} (ascii : Utf8.IsAscii byte) (bytes : Bytes) :
    (Text.lines (Utf8.decodeLossy bytes)).map (·.count (Utf8.charOf byte)) =
      (Utf8.linesOf bytes).map (·.count byte) := by
  rw [Utf8.lines_decodeLossy, List.map_map]
  exact List.map_congr_left fun line _ => Utf8.count_decodeLossy ascii line

/-- **Invalid bytes stay local.** The bytes of a text are read as this text. Any bytes may be cut
at an ASCII byte before or after they are read, so a file is read line by line: its lines have the
braces of their bytes, and the text of a line depends on no other line. -/
theorem readSource_isLocal :
    (∀ (volume : Volume) (path : Text) (bytes : Bytes), volume.read path = .ok bytes →
      readSource volume path = .ok (Utf8.decodeLossy bytes)) ∧
    (∀ bytes : Bytes, bytes.toByteArray.IsValidUTF8 →
      Utf8.decode? bytes = some (Utf8.decodeLossy bytes) ∧
        Utf8.encode (Utf8.decodeLossy bytes) = bytes) ∧
    (∀ (before after : Bytes) (byte : UInt8), Utf8.IsAscii byte →
      Utf8.decodeLossy (before ++ [byte] ++ after) =
        Utf8.decodeLossy before ++ [Utf8.charOf byte] ++ Utf8.decodeLossy after) ∧
    (∀ bytes : Bytes,
      Text.splitOn '\n' (Utf8.decodeLossy bytes) = (bytes.splitOn 0x0A).map Utf8.decodeLossy ∧
      Text.lines (Utf8.decodeLossy bytes) = (Utf8.linesOf bytes).map Utf8.decodeLossy ∧
      (Text.lines (Utf8.decodeLossy bytes)).map (·.count '{') =
        (Utf8.linesOf bytes).map (·.count 0x7B) ∧
      (Text.lines (Utf8.decodeLossy bytes)).map (·.count '}') =
        (Utf8.linesOf bytes).map (·.count 0x7D)) ∧
    ∀ (bytes others : Bytes) (index : Nat),
      (Utf8.linesOf bytes)[index]? = (Utf8.linesOf others)[index]? →
        (Text.lines (Utf8.decodeLossy bytes))[index]? =
          (Text.lines (Utf8.decodeLossy others))[index]? := by
  refine ⟨fun _ _ _ read => readSource_of_ok read, ?_, ?_, ?_, ?_⟩
  · intro bytes valid
    obtain ⟨text, rfl⟩ := Utf8.isValidUTF8_iff.mp valid
    rw [Utf8.decodeLossy_encode]
    exact ⟨Utf8.decode?_eq_some_iff.mpr rfl, rfl⟩
  · intro before after byte ascii
    rw [List.append_assoc, List.singleton_append, Utf8.decodeLossy_append_ascii ascii,
      List.append_assoc, List.singleton_append]
  · intro bytes
    have openings : Utf8.IsAscii 0x7B := by decide
    have closings : Utf8.IsAscii 0x7D := by decide
    exact ⟨Utf8.splitOn_decodeLossy Utf8.isAscii_feed bytes, Utf8.lines_decodeLossy bytes,
      map_count_lines openings bytes, map_count_lines closings bytes⟩
  · intro bytes others index same
    rw [Utf8.lines_decodeLossy, Utf8.lines_decodeLossy, List.getElem?_map, List.getElem?_map,
      same]

/-- Three lines: a sequence that the line feed cuts off, a brace beside bytes that begin no
character, and a character of two bytes. -/
def damagedBytes : Bytes :=
  [0xE2, 0x82, 0x0A, 0xFF, 0x7B, 0xC0, 0x0D, 0x0A, 0xC3, 0xA9]

/-- A volume with a damaged file. -/
def damagedVolume : Volume where
  root := .directory [(['a'], .file damagedBytes)]
  current := []

/-- In a file with damaged lines, the damage stays in these lines. -/
theorem readSource_isLocal_damagedVolume :
    damagedVolume.read ['a'] = .ok damagedBytes ∧
      readSource damagedVolume ['a'] = .ok (Utf8.decodeLossy damagedBytes) ∧
      Utf8.encode (Utf8.decodeLossy [0xC3, 0xA9]) = [0xC3, 0xA9] ∧
      Utf8.decodeLossy ([0xE2, 0x82] ++ [0x0A] ++ [0xFF, 0x7B]) =
        ['\uFFFD'] ++ ['\n'] ++ ['\uFFFD', '{'] ∧
      Text.lines (Utf8.decodeLossy damagedBytes) =
        [['\uFFFD'], ['\uFFFD', '{', '\uFFFD'], ['é']] ∧
      (Text.lines (Utf8.decodeLossy damagedBytes))[2]? =
        (Text.lines (Utf8.decodeLossy [0x0A, 0x0A, 0xC3, 0xA9]))[2]? := by
  have read : damagedVolume.read ['a'] = .ok damagedBytes := rfl
  have valid : (List.toByteArray [0xC3, 0xA9]).IsValidUTF8 :=
    Utf8.isValidUTF8_iff.mpr ⟨['é'], by decide⟩
  have feed : Utf8.IsAscii 0x0A := Utf8.isAscii_feed
  have sameLine : (Utf8.linesOf damagedBytes)[2]? =
      (Utf8.linesOf [0x0A, 0x0A, 0xC3, 0xA9])[2]? := by decide
  obtain ⟨reads, undamaged, cut, lineWise, independent⟩ := readSource_isLocal
  refine ⟨read, reads _ _ _ read, (undamaged _ valid).2, cut _ _ _ feed, ?_,
    independent _ _ _ sameLine⟩
  rw [(lineWise damagedBytes).2.1]
  decide

end Scan

end AssemblyDigest
