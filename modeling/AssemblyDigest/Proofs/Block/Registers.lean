import AssemblyDigest.Proofs.Block.Continuation
import AssemblyDigest.Proofs.Utf8.Encode
import Mathlib.Algebra.GroupWithZero.Nat
import Mathlib.Algebra.Ring.Int.Defs

/-! # An extractor as plain registers

An extractor may be kept in four registers that know nothing of each other: whether a block is
open, the count of open braces, the buffered lines and the snippets. Then every step has to put all
of them in order: the line that closes a block files the buffer, clears it and brings the count back
to zero by its own braces. A condition on the registers that each line keeps says how they hang
together (`AssemblyDigest.Block.Registers.Sound.push`). It follows that the buffer is never empty
when it is filed, and that the count fits a signed word of 64 bits for every text that could be
stored (`AssemblyDigest.Block.Registers.sound_ofLines`).
-/

namespace AssemblyDigest

namespace Block

/-- How many braces of both kinds a line holds. -/
def braces (line : Text) : Nat :=
  line.count '{' + line.count '}'

/-- The balance of a line is at most as far from zero as the line has braces. -/
theorem natAbs_balance_le (line : Text) : (balance line).natAbs ≤ braces line := by
  unfold balance braces
  omega

/-- The balances of lines together are at most as far from zero as they have braces. -/
theorem natAbs_sum_balance_le (lines : List Text) :
    (lines.map balance).sum.natAbs ≤ (lines.map braces).sum := by
  induction lines with
  | nil => exact Nat.le_refl 0
  | cons line lines ih =>
      have first := natAbs_balance_le line
      rw [List.map_cons, List.sum_cons, List.map_cons, List.sum_cons]
      omega

/-- A line has at least as many bytes as braces. -/
theorem braces_le_byteLength (line : Text) : braces line ≤ line.byteLength := by
  induction line with
  | nil => exact Nat.le_refl 0
  | cons char line ih =>
      have one : 0 < Text.byteLength [char] := Text.byteLength_pos (List.cons_ne_nil char [])
      have both : braces (char :: line) ≤ 1 + braces line := by
        simp only [braces, List.count_cons, beq_iff_eq]
        by_cases opening : char = '{'
        · subst opening
          simp only [↓reduceIte, Char.reduceEq]
          omega
        · simp only [opening, ↓reduceIte]
          split <;> omega
      rw [← List.singleton_append, Text.byteLength_append]
      exact Nat.le_trans both (Nat.add_le_add one ih)

/-- Lines together have at least as many bytes as braces. -/
theorem sum_braces_le (lines : List Text) :
    (lines.map braces).sum ≤ (lines.map Text.byteLength).sum := by
  induction lines with
  | nil => exact Nat.le_refl 0
  | cons line lines ih =>
      rw [List.map_cons, List.sum_cons, List.map_cons, List.sum_cons]
      exact Nat.add_le_add (braces_le_byteLength line) ih

/-- The state of an extractor, register by register. -/
structure Registers where
  inside : Bool
  depth : Int
  /-- The buffered lines, in source order. -/
  current : List Text
  /-- The texts of the finished blocks, in source order. -/
  snippets : List Text
  deriving DecidableEq, Repr

namespace Registers

/-- The registers before the first line. -/
def start : Registers where
  inside := false
  depth := 0
  current := []
  snippets := []

/-- Files the buffered lines, if there are any, and clears the buffer. -/
def flush (registers : Registers) : Registers :=
  if registers.current = [] then registers
  else
    { registers with
      current := []
      snippets := registers.snippets ++ [Text.joinLines registers.current] }

/-- Buffers a line and counts its braces. -/
def collect (registers : Registers) (line : Text) : Registers :=
  { registers with
    current := registers.current ++ [line]
    depth := registers.depth + balance line }

/-- The registers after one more line. -/
def push (registers : Registers) (line : Text) : Registers :=
  if registers.inside then
    if (registers.collect line).depth = 0 then
      { (registers.collect line).flush with inside := false }
    else registers.collect line
  else if opens line then
    { registers with inside := true, depth := 1, current := registers.current ++ [line] }
  else registers

/-- The texts of all blocks, an open one included. -/
def finish (registers : Registers) : List Text :=
  if registers.inside then registers.flush.snippets else registers.snippets

/-- The registers after the given lines. -/
def ofLines (lines : List Text) : Registers :=
  lines.foldl push start

/-- The numbers that are computed for a line inside a block: its braces of both kinds, their
difference, and the new depth. -/
def sums (registers : Registers) (line : Text) : List Int :=
  [line.count '{', line.count '}', balance line, (registers.collect line).depth]

/-- How the registers hang together. -/
structure Sound (registers : Registers) : Prop where
  outside : registers.inside = false → registers.depth = 0 ∧ registers.current = []
  inside : registers.inside = true →
    ∃ opening body, registers.current = opening :: body ∧ opens opening = true ∧
      registers.depth = 1 + (body.map balance).sum ∧ registers.depth ≠ 0 ∧
      (registers.depth - 1).natAbs ≤ (body.map braces).sum

theorem flush_of_ne_nil {registers : Registers} (buffered : registers.current ≠ []) :
    registers.flush =
      { registers with
        current := []
        snippets := registers.snippets ++ [Text.joinLines registers.current] } :=
  if_neg buffered

theorem current_collect_ne_nil (registers : Registers) (line : Text) :
    (registers.collect line).current ≠ [] :=
  List.append_ne_nil_of_right_ne_nil _ (List.cons_ne_nil line [])

/-- A line that brings the depth to zero files the buffer with it. -/
theorem push_closing {registers : Registers} {line : Text} (inside : registers.inside = true)
    (zero : (registers.collect line).depth = 0) :
    registers.push line =
      ⟨false, 0, [], registers.snippets ++ [Text.joinLines (registers.current ++ [line])]⟩ := by
  have buffered := registers.current_collect_ne_nil line
  rw [push, if_pos inside, if_pos zero, flush_of_ne_nil buffered, zero]
  rfl

/-- Any other line inside a block is buffered. -/
theorem push_buffering {registers : Registers} {line : Text} (inside : registers.inside = true)
    (unfinished : (registers.collect line).depth ≠ 0) :
    registers.push line = registers.collect line := by
  rw [push, if_pos inside, if_neg unfinished]

/-- A line that opens a block is buffered and counts as one open brace. -/
theorem push_opening {registers : Registers} {line : Text} (outside : registers.inside = false)
    (opening : opens line = true) :
    registers.push line = ⟨true, 1, registers.current ++ [line], registers.snippets⟩ := by
  rw [push, outside, if_neg Bool.false_ne_true, if_pos opening]

/-- Any other line outside a block is skipped. -/
theorem push_quiet {registers : Registers} {line : Text} (outside : registers.inside = false)
    (quiet : opens line = false) : registers.push line = registers := by
  rw [push, outside, if_neg Bool.false_ne_true, quiet, if_neg Bool.false_ne_true]

theorem sound_start : start.Sound :=
  ⟨fun _ => ⟨rfl, rfl⟩, fun inside => nomatch inside⟩

/-- What a line inside a block leads to, apart from the question whether it ends the block. -/
theorem Sound.collect {registers : Registers} (sound : registers.Sound)
    (inside : registers.inside = true) (line : Text) :
    ∃ opening body, (registers.collect line).current = opening :: body ∧ opens opening = true ∧
      (registers.collect line).depth = 1 + (body.map balance).sum ∧
      ((registers.collect line).depth - 1).natAbs ≤ (body.map braces).sum := by
  obtain ⟨opening, body, current, opened, depth, -, -⟩ := sound.inside inside
  have more : (registers.collect line).depth = 1 + ((body ++ [line]).map balance).sum := by
    rw [Registers.collect, depth, List.map_append, List.sum_append, List.map_singleton,
      List.sum_singleton, Int.add_assoc]
  refine ⟨opening, body ++ [line], ?_, opened, more, ?_⟩
  · rw [Registers.collect, current, List.cons_append]
  · have within := natAbs_sum_balance_le (body ++ [line])
    rw [more]
    omega

/-- One more line keeps the registers in order. -/
theorem Sound.push {registers : Registers} (sound : registers.Sound) (line : Text) :
    (registers.push line).Sound := by
  cases inside : registers.inside with
  | false =>
      cases opening : opens line with
      | false =>
          rw [push_quiet inside opening]
          exact sound
      | true =>
          rw [push_opening inside opening, (sound.outside inside).2]
          refine ⟨?_, fun _ => ⟨line, [], rfl, opening, rfl, ?_, ?_⟩⟩
          · intro outside
            cases outside
          · exact Int.one_ne_zero
          · exact Nat.le_refl 0
  | true =>
      by_cases zero : (registers.collect line).depth = 0
      · rw [push_closing inside zero]
        exact ⟨fun _ => ⟨rfl, rfl⟩, fun stillInside => nomatch stillInside⟩
      · rw [push_buffering inside zero]
        refine ⟨fun outside => ?_, fun _ => ?_⟩
        · cases inside.symm.trans outside
        · obtain ⟨opening, body, current, opened, depth, bounded⟩ := sound.collect inside line
          exact ⟨opening, body, current, opened, depth, zero, bounded⟩

/-- The registers hang together after any lines. -/
theorem Sound.foldl_push {registers : Registers} (sound : registers.Sound) (lines : List Text) :
    (lines.foldl Registers.push registers).Sound := by
  induction lines generalizing registers with
  | nil => exact sound
  | cons line lines ih => exact ih (sound.push line)

/-- Inside a block the buffer is not empty. -/
theorem Sound.current_ne_nil {registers : Registers} (sound : registers.Sound)
    (inside : registers.inside = true) : registers.current ≠ [] := by
  obtain ⟨opening, body, current, -⟩ := sound.inside inside
  rw [current]
  exact List.cons_ne_nil opening body

/-! ### Words of 64 bits -/

/-- Whether a number is the value of a signed word of 64 bits. -/
def FitsWord (number : Int) : Prop :=
  (Int64.ofInt number).toInt = number

/-- Numbers closer to zero than `2 ^ 63` fit a signed word. -/
theorem fitsWord_of_natAbs_lt {number : Int} (small : number.natAbs < 2 ^ 63) :
    FitsWord number :=
  Int64.toInt_ofInt_of_le (by omega) (by omega)

/-- A depth that is as far from one as lines have braces is small if the lines are short. -/
theorem natAbs_lt_of_short {depth : Int} {opening : Text} {body : List Text}
    (bounded : (depth - 1).natAbs ≤ (body.map braces).sum)
    (short : ((opening :: body).map Text.byteLength).sum < 2 ^ 63 - 1) :
    depth.natAbs < 2 ^ 63 := by
  have within := sum_braces_le body
  rw [List.map_cons, List.sum_cons] at short
  omega

/-- The depth of buffered lines fits a word if the lines are short. -/
theorem Sound.fitsWord_depth {registers : Registers} (sound : registers.Sound)
    (short : (registers.current.map Text.byteLength).sum < 2 ^ 63 - 1) :
    FitsWord registers.depth := by
  cases inside : registers.inside with
  | false =>
      rw [(sound.outside inside).1]
      exact fitsWord_of_natAbs_lt (by decide)
  | true =>
      obtain ⟨opening, body, current, -, -, -, bounded⟩ := sound.inside inside
      rw [current] at short
      exact fitsWord_of_natAbs_lt (natAbs_lt_of_short bounded short)

/-- Whatever is computed for a line inside a block fits a word if the buffered lines are short,
this line included. -/
theorem Sound.fitsWord_sums {registers : Registers} (sound : registers.Sound)
    (inside : registers.inside = true) {line : Text}
    (short : ((registers.collect line).current.map Text.byteLength).sum < 2 ^ 63 - 1) :
    ∀ number ∈ registers.sums line, FitsWord number := by
  have lineShort : braces line < 2 ^ 63 := by
    have within := braces_le_byteLength line
    rw [Registers.collect, List.map_append, List.sum_append, List.map_singleton,
      List.sum_singleton] at short
    omega
  have balanced := natAbs_balance_le line
  obtain ⟨opening, body, current, -, -, bounded⟩ := sound.collect inside line
  rw [current] at short
  have depthShort := natAbs_lt_of_short bounded short
  intro number member
  simp only [sums, List.mem_cons, List.not_mem_nil, or_false] at member
  apply fitsWord_of_natAbs_lt
  unfold braces at lineShort balanced
  rcases member with rfl | rfl | rfl | rfl
  · omega
  · omega
  · omega
  · exact depthShort

end Registers

namespace Extractor

/-- What an extractor keeps in its registers. -/
def registers (extractor : Extractor) : Registers where
  inside := extractor.inside
  depth := extractor.depth
  current := extractor.captured
  snippets := extractor.finished.reverse

/-- A step of the registers is a step of the extractor. -/
theorem registers_push (extractor : Extractor) (line : Text) :
    (extractor.push line).registers = extractor.registers.push line := by
  obtain ⟨capture, finished⟩ := extractor
  cases capture with
  | none =>
      cases opening : opens line with
      | false =>
          rw [push_quiet opening, Registers.push_quiet rfl opening]
      | true =>
          rw [push_opening opening, Registers.push_opening rfl opening]
          rfl
  | some capture =>
      by_cases zero : capture.depth + balance line = 0
      · have closed : (registers ⟨some capture, finished⟩).push line = _ :=
          Registers.push_closing rfl zero
        rw [push_closing zero, closed, registers, List.reverse_cons]
        rfl
      · have buffered : (registers ⟨some capture, finished⟩).push line = _ :=
          Registers.push_buffering rfl zero
        rw [push_capturing zero, buffered]
        simp only [registers, inside, depth, captured, Capture.lines_push, Capture.depth_push,
          Registers.collect, Option.isSome_some]

/-- The registers follow the extractor line by line. -/
theorem registers_foldl_push (lines : List Text) (extractor : Extractor) :
    (lines.foldl push extractor).registers = lines.foldl Registers.push extractor.registers := by
  induction lines generalizing extractor with
  | nil => rfl
  | cons line lines ih => rw [List.foldl_cons, ih, registers_push, List.foldl_cons]

/-- After any lines the registers are those of the extractor. -/
theorem registers_ofLines (lines : List Text) :
    (ofLines lines).registers = Registers.ofLines lines :=
  registers_foldl_push lines empty

/-- An extractor files its buffer at the end without asking whether it is empty. -/
theorem finish_registers {extractor : Extractor} (sound : extractor.registers.Sound) :
    extractor.registers.finish = extractor.finish := by
  obtain ⟨capture, finished⟩ := extractor
  cases capture with
  | none => rfl
  | some capture =>
      rw [Registers.finish, Registers.flush_of_ne_nil (sound.current_ne_nil rfl)]
      exact List.reverse_cons.symm

end Extractor

/-- **The registers of an extractor.** After any lines the registers are those of the extractor and
hang together: outside a block the depth is zero and the buffer is empty; inside, the buffer begins
with a line that opens a block, the depth is one more than the balance of the other lines, not
zero, and no farther from one than these lines have braces. So the buffer is not empty when it is
filed, at the end or by a line. As long as the buffered lines have fewer than `2 ^ 63 - 1` bytes
together, the depth and all numbers that lead to it fit a signed word of 64 bits. -/
theorem Registers.sound_ofLines (lines : List Text) :
    Registers.ofLines lines = (Extractor.ofLines lines).registers ∧
    (Registers.ofLines lines).finish = extract lines ∧
    (Registers.ofLines lines).Sound ∧
    ((Registers.ofLines lines).inside = true → (Registers.ofLines lines).current ≠ []) ∧
    (∀ line, ((Registers.ofLines lines).collect line).current ≠ []) ∧
    (((Registers.ofLines lines).current.map Text.byteLength).sum < 2 ^ 63 - 1 →
      FitsWord (Registers.ofLines lines).depth) ∧
    ∀ line, (Registers.ofLines lines).inside = true →
      (((Registers.ofLines lines).collect line).current.map Text.byteLength).sum < 2 ^ 63 - 1 →
      ∀ number ∈ (Registers.ofLines lines).sums line, FitsWord number := by
  have sound : (Registers.ofLines lines).Sound := sound_start.foldl_push lines
  have same := Extractor.registers_ofLines lines
  refine ⟨same.symm, ?_, sound, sound.current_ne_nil, current_collect_ne_nil _,
    sound.fitsWord_depth, fun line inside short => sound.fitsWord_sums inside short⟩
  rw [← same]
  exact Extractor.finish_registers (same ▸ sound)

-- Below zero a block stays open, and its last line alone brings the depth back to zero.
example :
    let lines := [keyword ++ ['{', '}'], ['}', '}'], ['{']]
    Registers.ofLines (lines.take 2) = ⟨true, -1, lines.take 2, []⟩ ∧
      Registers.ofLines lines = ⟨false, 0, [], [Text.joinLines lines]⟩ := by
  decide

end Block

end AssemblyDigest
