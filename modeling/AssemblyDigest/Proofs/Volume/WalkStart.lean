import AssemblyDigest.Proofs.Volume.Reach
import AssemblyDigest.Volume.Walk

/-! # Where a walk starts

A walk looks at its root before it follows a link there. What is looked at is reached unless it
is a link, and what cannot be looked at cannot be reached, so a walk starts at the directory that
the root leads to, or at the file or link that the root itself names, and it cannot start exactly
if the root leads nowhere (`AssemblyDigest.Volume.walkStart_eq_error_iff`).
-/

namespace AssemblyDigest

namespace Volume

variable {volume : Volume}

/-- A way that looks at something other than a link reaches it. -/
theorem Way.reach_of_inspect {links : Nat} {elements : List Text} {here place : Place}
    (way : Way volume .inspect links elements here place)
    (plain : ∀ target, volume.at? place ≠ some (.link target)) :
    Way volume .reach links elements here place := by
  induction way with
  | done links here => exact .done links here
  | stay directory dot way ih => exact .stay directory dot (ih plain)
  | parent directory way ih => exact .parent directory (ih plain)
  | enter directory passable found noLink way ih =>
      exact .enter directory (passable.reach _) found noLink (ih plain)
  | jump directory passable found through way ih =>
      exact .jump directory (passable.reach _) found
        (fun looking => by cases looking.1) (ih plain)
  | link directory passable found inspecting =>
      exact (plain _ (at?_append_name directory found)).elim
  | missing directory passable absent creating => cases creating

/-- A way that reaches something looks at it, or at a link on the way. -/
theorem Way.inspect_of_reach {links : Nat} {elements : List Text} {here place : Place}
    (way : Way volume .reach links elements here place) :
    Way volume .inspect links elements here place ∨
      ∃ last target, Way volume .inspect links elements here last ∧
        volume.at? last = some (.link target) := by
  induction way with
  | done links here => exact Or.inl (.done links here)
  | stay directory dot way ih =>
      rcases ih with same | ⟨last, target, looked, stands⟩
      · exact Or.inl (.stay directory dot same)
      · exact Or.inr ⟨last, target, .stay directory dot looked, stands⟩
  | parent directory way ih =>
      rcases ih with same | ⟨last, target, looked, stands⟩
      · exact Or.inl (.parent directory same)
      · exact Or.inr ⟨last, target, .parent directory looked, stands⟩
  | enter directory passable found noLink way ih =>
      have looking : ∀ others, Passable .inspect _ _ others :=
        passable.transfer (by decide) (by decide)
      rcases ih with same | ⟨last, target, looked, stands⟩
      · exact Or.inl (.enter directory (looking _) found noLink same)
      · exact Or.inr ⟨last, target, .enter directory (looking _) found noLink looked, stands⟩
  | @jump links name target rest here place entries directory passable found through way ih =>
      have looking : ∀ others, Passable .inspect here name others :=
        passable.transfer (by decide) (by decide)
      by_cases last : rest = []
      · subst last
        exact Or.inr ⟨_, target, .link directory (looking []) found rfl,
          at?_append_name directory found⟩
      · have through : ¬ (Purpose.inspect = .inspect ∧ rest = []) := fun looking => last looking.2
        rcases ih with same | ⟨last, aim, looked, stands⟩
        · exact Or.inl (.jump directory (looking rest) found through same)
        · exact Or.inr ⟨last, aim, .jump directory (looking rest) found through looked, stands⟩
  | link directory passable found inspecting => cases inspecting
  | missing directory passable absent creating => cases creating

/-- A path that is looked at leads to the same place unless a link stands there. -/
theorem resolve_reach_of_inspect {path : Text} {place : Place}
    (looked : volume.resolve .inspect path = .ok place)
    (plain : ∀ target, volume.at? place ≠ some (.link target)) :
    volume.resolve .reach path = .ok place := by
  obtain ⟨noNul, nonempty, short, way⟩ := resolve_eq_ok_iff.mp looked
  exact resolve_eq_ok_iff.mpr
    ⟨noNul, nonempty, fun long => short ⟨by decide, long.2⟩, way.reach_of_inspect plain⟩

/-- What is looked at through no link is reached. -/
theorem find_reach_of_inspect {path : Text} {node : Node}
    (looked : volume.find .inspect path = .ok node) (plain : ∀ target, node ≠ .link target) :
    volume.find .reach path = .ok node := by
  obtain ⟨place, resolved, stands⟩ := find_eq_ok_iff.mp looked
  refine find_eq_ok_iff.mpr ⟨place, resolve_reach_of_inspect resolved ?_, stands⟩
  intro target linked
  rw [stands] at linked
  exact plain target (Option.some.inj linked)

/-- Elements along which nothing can be looked at lead nowhere, for the same reason. -/
theorem advance_reach_of_inspect {jump next : List Text → Place → Except AccessFault Place}
    (jumps : ∀ elements here cause, jump elements here = .error cause →
      next elements here = .error cause)
    {elements : List Text} {here : Place} {cause : AccessFault}
    (failed : volume.advance .inspect jump elements here = .error cause) :
    volume.advance .reach next elements here = .error cause := by
  induction elements generalizing here with
  | nil => cases failed
  | cons name rest ih =>
      have limit : exceedsLimit .reach here name = exceedsLimit .inspect here name := rfl
      rw [advance] at failed ⊢
      split at failed
      case h_2 => exact failed
      simp only [limit, reduceCtorEq, false_and, ↓reduceIte, true_and] at failed ⊢
      split at failed
      · next dot => rw [if_pos dot, ih failed]
      · next notDot =>
        rw [if_neg notDot]
        split at failed
        · next dots => rw [if_pos dots, ih failed]
        · next notDots =>
          rw [if_neg notDots]
          split at failed
          · next long => rw [if_pos long, failed]
          · next short =>
            rw [if_neg short]
            split at failed
            · exact failed
            · split at failed
              · cases failed
              · exact jumps _ _ _ failed
            · next child plain => exact ih failed

/-- A path that cannot be followed to be looked at cannot be followed to the end either. -/
theorem follow_reach_of_inspect {links : Nat} {elements : List Text} {here : Place}
    {cause : AccessFault} (failed : volume.follow .inspect links elements here = .error cause) :
    volume.follow .reach links elements here = .error cause := by
  induction links generalizing elements here cause with
  | zero => exact advance_reach_of_inspect (fun _ _ _ same => same) failed
  | succ links ih => exact advance_reach_of_inspect (fun _ _ _ same => ih same) failed

/-- What cannot be looked at cannot be reached, for the same reason. -/
theorem find_reach_error_of_inspect {path : Text} {cause : AccessFault}
    (failed : volume.find .inspect path = .error cause) :
    volume.find .reach path = .error cause := by
  cases looked : volume.resolve .inspect path with
  | error reason =>
      have lost : volume.resolve .reach path = .error reason := by
        simp only [resolve] at looked ⊢
        split at looked
        · next nul => rw [if_pos nul, looked]
        · next noNul =>
          rw [if_neg noNul]
          split at looked
          · next empty => rw [if_pos empty, looked]
          · next nonempty =>
            rw [if_neg nonempty]
            split at looked
            · next long => rw [if_pos ⟨by decide, long.2⟩, looked]
            · next short =>
              rw [if_neg fun long => short ⟨by decide, long.2⟩]
              exact follow_reach_of_inspect looked
      rw [find, looked] at failed
      rw [find, lost]
      exact failed
  | ok place =>
      have missing : volume.at? place = none := by
        cases stands : volume.at? place with
        | none => rfl
        | some node =>
            rw [find_eq_ok_iff.mpr ⟨place, looked, stands⟩] at failed
            cases failed
      have reached : volume.resolve .reach path = .ok place := by
        apply resolve_reach_of_inspect looked
        intro target linked
        rw [missing] at linked
        cases linked
      rw [find, looked] at failed
      rw [find, reached]
      exact failed

/-- A root that leads to a directory is walked from there. -/
theorem walkStart_of_find {root : Text} {entries : List (Text × Node)}
    (found : volume.find .reach root = .ok (.directory entries)) :
    volume.walkStart root = .ok (.directory entries) := by
  obtain ⟨place, resolved, stands⟩ := find_eq_ok_iff.mp found
  obtain ⟨noNul, nonempty, short, way⟩ := resolve_eq_ok_iff.mp resolved
  have looked : ∀ {last node}, Way volume .inspect linkLimit (Path.elements root)
      (volume.origin root) last → volume.at? last = some node →
      volume.find .inspect root = .ok node := fun way stands =>
    find_eq_ok_iff.mpr ⟨_, resolve_eq_ok_iff.mpr
      ⟨noNul, nonempty, fun long => short ⟨by decide, long.2⟩, way⟩, stands⟩
  rcases way.inspect_of_reach with way | ⟨last, target, way, linked⟩
  · simp only [walkStart, looked way stands, bind, Except.bind]
  · simp only [walkStart, looked way linked, found, bind, Except.bind]

/-- A walk starts at a link that the root names, in which there is nothing to walk, or at what
the root leads to. -/
theorem find_of_walkStart {root : Text} {start : Node}
    (started : volume.walkStart root = .ok start) :
    (∃ target, start = .link target ∧ volume.find .inspect root = .ok start) ∨
      volume.find .reach root = .ok start := by
  obtain ⟨node, looked, started⟩ := exists_of_bind_eq_ok started
  cases node with
  | link target =>
      obtain ⟨reached, found, started⟩ := exists_of_bind_eq_ok started
      cases reached with
      | directory entries =>
          cases started
          exact Or.inr found
      | file bytes =>
          cases started
          exact Or.inl ⟨target, rfl, looked⟩
      | link other =>
          cases started
          exact Or.inl ⟨target, rfl, looked⟩
  | file bytes =>
      cases started
      exact Or.inr (find_reach_of_inspect looked (by simp))
  | directory entries =>
      cases started
      exact Or.inr (find_reach_of_inspect looked (by simp))

/-- A walk starts at a file only if the root names it, and not a link to it. -/
theorem find_inspect_of_walkStart {root : Text} {bytes : Bytes}
    (started : volume.walkStart root = .ok (.file bytes)) :
    volume.find .inspect root = .ok (.file bytes) := by
  obtain ⟨node, looked, started⟩ := exists_of_bind_eq_ok started
  cases node with
  | link target =>
      obtain ⟨reached, found, started⟩ := exists_of_bind_eq_ok started
      cases reached <;> cases started
  | file other =>
      cases started
      exact looked
  | directory entries => cases started

/-- A walk cannot start exactly if the root leads nowhere. -/
theorem walkStart_eq_error_iff {root : Text} {cause : AccessFault} :
    volume.walkStart root = .error cause ↔ volume.find .reach root = .error cause := by
  cases looked : volume.find .inspect root with
  | error reason => rw [find_reach_error_of_inspect looked, walkStart, looked]; rfl
  | ok node =>
      cases node with
      | link target =>
          rw [walkStart, looked]
          cases found : volume.find .reach root with
          | error reason => simp only [bind, Except.bind]
          | ok reached => cases reached <;> simp only [bind, Except.bind, reduceCtorEq]
      | file bytes =>
          rw [find_reach_of_inspect looked (by simp), walkStart, looked]
          simp [bind, Except.bind]
      | directory entries =>
          rw [find_reach_of_inspect looked (by simp), walkStart, looked]
          simp [bind, Except.bind]

/-- A walk of a well-formed volume starts at a well-formed tree. -/
theorem WellFormed.of_walkStart (wellFormed : volume.WellFormed) {root : Text} {start : Node}
    (started : volume.walkStart root = .ok start) : start.WellFormed := by
  rcases find_of_walkStart started with ⟨target, -, looked⟩ | found
  · exact wellFormed.of_find looked
  · exact wellFormed.of_find found

end Volume

end AssemblyDigest
