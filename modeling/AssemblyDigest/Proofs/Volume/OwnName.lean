import AssemblyDigest.Proofs.Path.BaseName
import AssemblyDigest.Proofs.Volume.WalkStart
import AssemblyDigest.Proofs.Volume.Written

/-! # The names of what paths lead to

A path that is looked at and does not lead to a directory ends with the name that what it leads to
has there (`AssemblyDigest.Volume.Way.exists_last`): an element after that name, be it empty or
`.`, would ask for a directory. Below a root the path of a file ends with the name of the file
anyway, so a walk gives each file a path whose last name is the file's own
(`AssemblyDigest.Volume.exists_top_of_walkStart`).
-/

namespace AssemblyDigest

namespace Volume

variable {volume : Volume}

/-- A way on which something other than a directory is looked at ends with its name. -/
theorem Way.exists_last {links : Nat} {elements : List Text} {here place : Place}
    (way : Way volume .inspect links elements here place) (nonempty : elements ≠ [])
    (noDirectory : ∀ entries, volume.at? place ≠ some (.directory entries)) :
    ∃ parent name, elements.getLast? = some name ∧ place = parent ++ [name] ∧
      Passable .inspect parent name [] := by
  induction way with
  | done links here => exact (nonempty rfl).elim
  | @stay links name rest here place entries directory dot way ih =>
      by_cases last : rest = []
      · subst last
        cases way
        exact (noDirectory _ directory).elim
      · rw [List.getLast?_cons_of_ne_nil last]
        exact ih last noDirectory
  | @parent links rest here place entries directory way ih =>
      by_cases last : rest = []
      · subst last
        cases way
        obtain ⟨others, parent⟩ := exists_directory_dropLast directory
        exact (noDirectory _ parent).elim
      · rw [List.getLast?_cons_of_ne_nil last]
        exact ih last noDirectory
  | @enter links name rest here place entries node directory passable found plain way ih =>
      by_cases last : rest = []
      · subst last
        cases way
        exact ⟨here, name, rfl, rfl, passable⟩
      · rw [List.getLast?_cons_of_ne_nil last]
        exact ih last noDirectory
  | @jump links name target rest here place entries directory passable found through way ih =>
      have last : rest ≠ [] := fun last => through ⟨rfl, last⟩
      rw [List.getLast?_cons_of_ne_nil last]
      rw [List.getLast?_append_of_ne_nil _ last] at ih
      exact ih (List.append_ne_nil_of_right_ne_nil _ last) noDirectory
  | @link links name target here entries directory passable found inspecting =>
      exact ⟨here, name, rfl, rfl, passable⟩
  | missing directory passable absent creating => cases creating

/-- A path that is looked at and leads to no directory has the last name of the place it leads
to. -/
theorem lastName?_of_resolve {path : Text} {place : Place}
    (looked : volume.resolve .inspect path = .ok place)
    (noDirectory : ∀ entries, volume.at? place ≠ some (.directory entries)) :
    Path.lastName? path = place.getLast? := by
  obtain ⟨-, nonempty, -, way⟩ := resolve_eq_ok_iff.mp looked
  obtain ⟨ending, empty, same⟩ := Path.exists_ending path
  by_cases none : Path.elements path = []
  · -- A path of separators alone leads to the top of the volume, which has no name.
    rw [none, origin, if_pos (Path.isAbsolute_of_elements_eq_nil nonempty none)] at way
    cases way
    rw [none] at same
    rw [Path.lastName?, Path.steps, (List.append_eq_nil_iff.mp same.symm).1]
    rfl
  · obtain ⟨parent, name, last, rfl, passable⟩ := way.exists_last none noDirectory
    rw [List.getLast?_concat]
    refine Path.lastName?_of_names ?_ passable.notHere passable.notParent
    rw [same] at last
    rcases empty with rfl | rfl
    · rwa [List.append_nil] at last
    · rw [List.getLast?_concat] at last
      exact (passable.nonempty (Option.some.inj last).symm).elim

/-- A walk gives each file a path whose last name is that of the place where the file stands. -/
theorem exists_top_of_walkStart (wellFormed : volume.WellFormed) {root : Text} {start : Node}
    (started : volume.walkStart root = .ok start) {place : Place} {bytes : Bytes}
    (leads : start.at? place = some (.file bytes)) :
    ∃ top, volume.resolve .reach root = .ok top ∧ volume.at? (top ++ place) = some (.file bytes) ∧
      Path.lastName? (Path.below root place) = (top ++ place).getLast? := by
  by_cases empty : place = []
  · subst empty
    rw [Node.at?_nil] at leads
    obtain rfl := Option.some.inj leads
    obtain ⟨top, looked, stands⟩ := find_eq_ok_iff.mp (find_inspect_of_walkStart started)
    have resolved := resolve_reach_of_inspect looked (by simp [stands])
    have named := lastName?_of_resolve looked (by simp [stands])
    rw [← List.append_nil top] at stands named
    exact ⟨top, resolved, stands, named⟩
  · have proper := ((wellFormed.of_walkStart started).at? leads).2
    rcases find_of_walkStart started with ⟨target, rfl, -⟩ | reached
    · cases place <;> cases leads
    · obtain ⟨top, resolved, stands⟩ := find_eq_ok_iff.mp reached
      refine ⟨top, resolved, ?_, ?_⟩
      · unfold at? at stands ⊢
        rw [Node.at?_append, stands, Option.bind_some, leads]
      · rw [Path.lastName?_below proper empty, List.getLast?_append_of_ne_nil _ empty]

end Volume

end AssemblyDigest
