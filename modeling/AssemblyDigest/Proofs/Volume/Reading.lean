import AssemblyDigest.Proofs.Volume.Reach

/-! # Reading files

A path that leads to a file gives its bytes, unless something keeps the file from being read
(`AssemblyDigest.Volume.read_of_file`). A file that lies below a root can be unreadable for a second
reason, that its path is too long (`AssemblyDigest.Volume.hindrance?`), and for no other
(`AssemblyDigest.Volume.read_below`).
-/

namespace AssemblyDigest

namespace Volume

variable {volume : Volume} {path : Text}

/-- Reading a file that a path leads to gives its bytes, or what keeps it from being read. -/
theorem read_of_file {place : Place} {bytes : Bytes}
    (resolved : volume.resolve .reach path = .ok place)
    (stands : volume.at? place = some (.file bytes)) :
    volume.read path = (volume.obstacle? place).elim (.ok bytes) .error := by
  simp only [read, resolved, stands, bind, Except.bind]
  cases volume.obstacle? place <;> rfl

/-- When a path can be read. -/
theorem read_eq_ok_iff {bytes : Bytes} :
    volume.read path = .ok bytes ↔ ∃ place, volume.resolve .reach path = .ok place ∧
      volume.at? place = some (.file bytes) ∧ volume.obstacle? place = none := by
  constructor
  · intro read
    obtain ⟨place, resolved, read⟩ := exists_of_bind_eq_ok read
    refine ⟨place, resolved, ?_⟩
    split at read
    · cases read
    · next content stands free =>
        cases read
        exact ⟨stands, free⟩
    · cases read
    · cases read
  · rintro ⟨place, resolved, stands, free⟩
    rw [read_of_file resolved stands, free]
    rfl

/-- A path that is too long cannot be read. -/
theorem read_of_long (noNul : '\x00' ∉ path) (long : pathLimit ≤ path.byteLength) :
    volume.read path = .error .nameTooLong := by
  rw [read, resolve_of_long noNul long]
  rfl

/-- What keeps a file from being read by a path: that the path is too long, or what stands in the
way at the place of the file. -/
def hindrance? (volume : Volume) (path : Text) : Option AccessFault :=
  if pathLimit ≤ path.byteLength then some .nameTooLong
  else (volume.resolve .reach path).toOption.bind volume.obstacle?

/-- Where nothing keeps files from being read, only a path that is too long does. -/
theorem hindrance?_of_free (free : ∀ place, volume.obstacle? place = none) {cause : AccessFault}
    (hindered : volume.hindrance? path = some cause) :
    cause = .nameTooLong ∧ pathLimit ≤ path.byteLength := by
  rw [hindrance?] at hindered
  split at hindered
  · next long =>
      cases hindered
      exact ⟨rfl, long⟩
  · obtain ⟨place, -, obstructed⟩ := Option.bind_eq_some_iff.mp hindered
    cases (free place).symm.trans obstructed

/-- **Files below a root** are read by their paths, unless there is a hindrance. -/
theorem read_below {root : Text} {start : Node} {names : Place} {bytes : Bytes}
    (found : volume.find .reach root = .ok start) (proper : ProperPlace names)
    (leads : start.at? names = some (.file bytes)) :
    volume.read (Path.below root names) =
      (volume.hindrance? (Path.below root names)).elim (.ok bytes) .error := by
  obtain ⟨place, resolved, stands⟩ := find_eq_ok_iff.mp found
  obtain ⟨noNul, -⟩ := resolve_eq_ok_iff.mp resolved
  rw [hindrance?]
  split
  · next long => exact read_of_long (Path.nul_not_mem_below noNul proper) long
  · next short =>
      have reached :=
        resolve_below resolved stands proper leads (by simp) (Nat.not_le.mp short)
      rw [read_of_file reached ((at?_append stands).trans leads), reached]
      rfl

end Volume

end AssemblyDigest
