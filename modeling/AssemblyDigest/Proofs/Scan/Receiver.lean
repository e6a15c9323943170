import AssemblyDigest.Proofs.Scope.Sources
import AssemblyDigest.Scan

/-! # What a receiver is given of a report

Whatever a receiver takes is a prefix of what was sent, and sending ends well exactly if that
is everything (`AssemblyDigest.Receiver.taken_send`). A receiver that takes a number of bytes
in all, in portions of any size, and then none, has taken just that many when sending fails
(`AssemblyDigest.Receiver.send_of_takes`). A scan that fails or finds no file sends nothing, so
a receiver holds a part of a report only together with a fault
(`AssemblyDigest.Scan.writeTo_of_takes`).
-/

namespace AssemblyDigest

namespace Receiver

variable {receiver : Receiver}

/-- **Nothing is invented or left out in between.** What is taken is a prefix of the bytes, and
sending ends well exactly if it is all of them. -/
theorem taken_send (receiver : Receiver) (bytes : Bytes) :
    (receiver.send bytes).taken <+: bytes ∧
      ((receiver.send bytes).complete = true ↔ (receiver.send bytes).taken = bytes) := by
  unfold send
  fun_induction receiver.sendFrom receiver.state bytes with
  | case1 state => exact ⟨List.prefix_rfl, fun _ => rfl, fun _ => rfl⟩
  | case2 state bytes nonempty refused =>
      refine ⟨List.nil_prefix, ⟨fun complete => ?_, fun whole => ?_⟩⟩
      · cases complete
      · exact (nonempty whole.symm).elim
  | case3 state bytes nonempty accepted count others ih =>
      obtain ⟨within, whole⟩ := ih
      have parts : bytes.take count ++ bytes.drop count = bytes := List.take_append_drop _ _
      constructor
      · have extended := (List.prefix_append_right_inj (bytes.take count)).mpr within
        rwa [parts] at extended
      · refine whole.trans ⟨fun same => (congrArg _ same).trans parts, fun same => ?_⟩
        exact List.append_cancel_left (same.trans parts.symm)

/-- The receiver that takes everything is given everything. -/
theorem send_unlimited (bytes : Bytes) : unlimited.send bytes = ⟨bytes, true⟩ := by
  unfold send
  fun_induction unlimited.sendFrom unlimited.state bytes with
  | case1 state => rfl
  | case2 state bytes nonempty refused =>
      exact (nonempty (List.length_eq_zero_iff.mp refused)).elim
  | case3 state bytes nonempty accepted count others ih =>
      rw [show others = _ from ih, List.take_append_drop]

/-- How many bytes a receiver takes from each of its states on: as long as some are left to
take, it takes at least one of those offered, and what it takes is counted off. -/
structure Room (receiver : Receiver) (left : receiver.State → Nat) : Prop where
  stops : ∀ state bytes, bytes ≠ [] → (receiver.accept state bytes = 0 ↔ left state = 0)
  counts : ∀ state bytes,
    receiver.accept state bytes + left (receiver.next state bytes) = left state

/-- Whether a receiver takes a number of bytes in all, in whatever portions, and then none. -/
def Takes (receiver : Receiver) (room : Nat) : Prop :=
  ∃ left, receiver.Room left ∧ left receiver.state = room

/-- A receiver with room takes as much as fits, however many pieces it takes it in. -/
theorem Room.sendFrom_eq {left : receiver.State → Nat} (room : receiver.Room left)
    (state : receiver.State) (bytes : Bytes) :
    receiver.sendFrom state bytes =
      ⟨bytes.take (left state), decide (bytes.length ≤ left state)⟩ := by
  fun_induction receiver.sendFrom state bytes with
  | case1 state => rw [List.take_nil, List.length_nil, decide_eq_true (Nat.zero_le _)]
  | case2 state bytes nonempty refused =>
      have positive := List.length_pos_iff.mpr nonempty
      rw [(room.stops state bytes nonempty).mp refused, List.take_zero,
        decide_eq_false (Nat.not_le.mpr positive)]
  | case3 state bytes nonempty accepted count others ih =>
      have counted : count + left (receiver.next state bytes) = left state :=
        room.counts state bytes
      have fits : (bytes.drop count).length ≤ left (receiver.next state bytes) ↔
          bytes.length ≤ left state := by
        rw [List.length_drop]
        omega
      rw [show others = _ from ih, ← counted, List.take_add, counted]
      simp only [fits]

/-- **What a receiver with limited room is given**: everything if there is room for it, and
otherwise as much as there is room for. -/
theorem send_of_takes {room : Nat} (takes : receiver.Takes room) (bytes : Bytes) :
    receiver.send bytes = ⟨bytes.take room, decide (bytes.length ≤ room)⟩ := by
  obtain ⟨left, counted, rfl⟩ := takes
  exact counted.sendFrom_eq receiver.state bytes

/-- The receiver that takes what it has room for takes as much as that. -/
theorem takes_limited (room : Nat) : (limited room).Takes room := by
  refine ⟨fun left : Nat => left, ⟨fun left bytes nonempty => ?_, fun left bytes => ?_⟩, rfl⟩
  · have positive := List.length_pos_iff.mpr nonempty
    exact Nat.min_eq_zero_iff.trans (or_iff_left (Nat.ne_of_gt positive))
  · have counted : ∀ left : Nat, min left bytes.length + (left - bytes.length) = left := by omega
    exact counted left

end Receiver

namespace Scan

/-- A report is sent whole if it fits, and otherwise the part that fits is taken and the fault
reported. -/
theorem emit_of_takes {receiver : Receiver} {room : Nat} (takes : receiver.Takes room)
    (bytes : Bytes) (stats : Stats) :
    emit receiver bytes stats =
      if bytes.length ≤ room then ⟨bytes, .ok (some stats)⟩
      else ⟨bytes.take room, .error (.access receiverPath .outputFull)⟩ := by
  simp only [emit, Receiver.send_of_takes takes, decide_eq_true_eq]
  split
  · next fits => rw [List.take_of_length_le fits]
  · rfl

/-- What is written is a prefix of the bytes, and all of them exactly if there is no fault. -/
theorem bytes_emit (receiver : Receiver) (bytes : Bytes) (stats : Stats) :
    (emit receiver bytes stats).bytes <+: bytes ∧
      ((emit receiver bytes stats).bytes = bytes ↔
        (emit receiver bytes stats).result = .ok (some stats)) := by
  obtain ⟨within, whole⟩ := receiver.taken_send bytes
  refine ⟨within, whole.symm.trans ?_⟩
  simp only [emit]
  split
  · next complete => exact iff_of_true complete rfl
  · next failed => exact iff_of_false failed fun ended => by cases ended

/-- **What a receiver is given of a report.** A scan that fails or finds no file writes nothing.
Otherwise a receiver with limited room is given the whole report if there is room for it, and
else as much of its front as there is room for, together with a fault. So what is written is a
prefix of the report, and all of it exactly if there is no fault. -/
theorem writeTo_of_takes {receiver : Receiver} {room : Nat} (takes : receiver.Takes room)
    (volume : Volume) (root : Text) (options : Options) :
    (∀ fault, workspace volume root options = .error fault →
      writeTo volume root receiver options = ⟨[], .error fault⟩) ∧
    (∀ scopeFile, workspace volume root options = .ok (.noFiles scopeFile) →
      writeTo volume root receiver options = ⟨[], .ok none⟩) ∧
    ∀ report stats, workspace volume root options = .ok (.report report stats) →
      (writeTo volume root receiver options =
        if (Utf8.encode (report.render options)).length ≤ room then
          ⟨Utf8.encode (report.render options), .ok (some stats)⟩
        else
          ⟨(Utf8.encode (report.render options)).take room,
            .error (.access receiverPath .outputFull)⟩) ∧
      (writeTo volume root receiver options).bytes <+: Utf8.encode (report.render options) ∧
      ((writeTo volume root receiver options).bytes = Utf8.encode (report.render options) ↔
        (writeTo volume root receiver options).result = .ok (some stats)) := by
  refine ⟨fun fault failed => ?_, fun scopeFile ended => ?_, fun report stats ended => ?_⟩
  · rw [writeTo, failed]
  · rw [writeTo, ended]
  · have emitted : writeTo volume root receiver options =
        emit receiver (Utf8.encode (report.render options)) stats := by rw [writeTo, ended]
    rw [emitted]
    exact ⟨emit_of_takes takes _ stats, bytes_emit receiver _ stats⟩

/-- The report on the sample volume. -/
def sampleReport : Report where
  entries :=
    [⟨['x', '.', 's', 'o', 'l'], ['w', '/', 'a', '/', 'x', '.', 's', 'o', 'l'],
      [['a', 's', 's', 'e', 'm', 'b', 'l', 'y', ' ', '{', '\n', '}']]⟩]

/-- A receiver of nine bytes takes the first nine bytes of the sample report. -/
theorem writeTo_sampleVolume_limited :
    (Receiver.limited 9).Takes 9 ∧
      workspace Scope.sampleVolume ['w'] .standard = .ok (.report sampleReport ⟨2, 1, 1, none⟩) ∧
      writeTo Scope.sampleVolume ['w'] (.limited 9) .standard =
        ⟨Utf8.encode ['#', '#', ' ', 'x', '.', 's', 'o', 'l', '\n'],
          .error (.access receiverPath .outputFull)⟩ := by
  have takes := Receiver.takes_limited 9
  have scanned : workspace Scope.sampleVolume ['w'] .standard =
      .ok (.report sampleReport ⟨2, 1, 1, none⟩) := rfl
  have written :=
    ((writeTo_of_takes takes Scope.sampleVolume ['w'] .standard).2.2 _ _ scanned).1
  rw [if_neg (by decide)] at written
  exact ⟨takes, scanned, written⟩

end Scan

end AssemblyDigest
