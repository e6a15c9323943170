import AssemblyDigest.Proofs.Path.Below
import Mathlib.Data.List.TakeWhile

/-! # The base name of a path

The *steps* of a path are its elements apart from the empty ones and `.`, and its *last name* is
the last step unless that is `..`. Reading a path from its end finds its last name
(`AssemblyDigest.Path.baseName?_eq_lastName?`), so that a path is listed under its last name, or in
full if it has none (`AssemblyDigest.Path.fileName_eq`). Neither `/` nor `/.` at the end of a path
is a step, so a path keeps its last name with any number of them after it
(`AssemblyDigest.Path.lastName?_append_padding`).
-/

namespace AssemblyDigest

namespace Path

/-- The elements of a path that are neither empty nor `.`. -/
def steps (path : Text) : List Text :=
  (names path).filter (· ≠ ['.'])

/-- The last step of a path, unless it leads to a parent. -/
def lastName? (path : Text) : Option Text :=
  (steps path).getLast?.filter (· ≠ ['.', '.'])

/-- Texts made of `/` and `/.`, one after the other. -/
inductive Padding : Text → Prop
  | nil : Padding []
  | separator {rest : Text} (padding : Padding rest) : Padding ('/' :: rest)
  | here {rest : Text} (padding : Padding rest) : Padding ('/' :: '.' :: rest)

/-- The steps on both sides of a separator follow each other. -/
theorem steps_append_cons (first second : Text) :
    steps (first ++ '/' :: second) = steps first ++ steps second := by
  rw [steps, names_append_cons, List.filter_append, steps, steps]

/-- A text without separators is a single step. -/
theorem steps_of_not_mem {name : Text} (nonempty : name ≠ []) (noSeparator : '/' ∉ name)
    (notHere : name ≠ ['.']) : steps name = [name] := by
  rw [steps, names_of_not_mem nonempty noSeparator]
  exact List.filter_cons_of_pos (decide_eq_true notHere)

/-- Padding at the end of a path adds no steps. -/
theorem steps_append_padding {padding : Text} (padded : Padding padding) (path : Text) :
    steps (path ++ padding) = steps path := by
  induction padded generalizing path with
  | nil => rw [List.append_nil]
  | @separator rest padded ih =>
      have closed : steps (path ++ ['/']) = steps path :=
        (steps_append_cons path []).trans (List.append_nil _)
      have shifted : path ++ '/' :: rest = path ++ ['/'] ++ rest := by
        rw [List.append_assoc, List.singleton_append]
      rw [shifted, ih, closed]
  | @here rest padded ih =>
      have closed : steps (path ++ ['/', '.']) = steps path :=
        (steps_append_cons path ['.']).trans (List.append_nil _)
      have shifted : path ++ '/' :: '.' :: rest = path ++ ['/', '.'] ++ rest := by
        rw [List.append_assoc, List.cons_append, List.singleton_append]
      rw [shifted, ih, closed]

/-- Padding does not change the last name. -/
theorem lastName?_append_padding {padding : Text} (padded : Padding padding) (path : Text) :
    lastName? (path ++ padding) = lastName? path := by
  rw [lastName?, steps_append_padding padded, lastName?]

/-- The last name is the last step, if that does not lead up. -/
theorem lastName?_of_steps {path name : Text} {before : List Text}
    (last : steps path = before ++ [name]) (notParent : name ≠ ['.', '.']) :
    lastName? path = some name := by
  rw [lastName?, last, List.getLast?_concat]
  exact Option.filter_some_pos (decide_eq_true notParent)

/-! ### Reading a path from its end -/

/-- What is removed from the end of a path holds no steps. -/
theorem steps_reverse_dropTail (reversed : Text) :
    steps (dropTail reversed).reverse = steps reversed.reverse := by
  fun_induction dropTail reversed with
  | case1 => rfl
  | case2 rest ih =>
      rw [ih, List.reverse_cons, steps_append_padding (.separator .nil)]
  | case3 rest ih =>
      rw [ih, List.reverse_cons, List.reverse_cons, List.append_assoc, List.singleton_append,
        steps_append_padding (.here .nil)]
  -- A path `.` is no padding, since no separator stands before it, but it has no steps either.
  | case4 => rfl
  | case5 => rfl

/-- The characters before the first separator are followed by nothing or by that separator. -/
theorem exists_after_takeWhile (text : Text) :
    ∃ rest, text.takeWhile (· ≠ '/') ++ rest = text ∧ (rest = [] ∨ ∃ more, rest = '/' :: more) := by
  refine ⟨text.dropWhile (· ≠ '/'), List.takeWhile_append_dropWhile, ?_⟩
  cases after : text.dropWhile (· ≠ '/') with
  | nil => exact Or.inl rfl
  | cons char more =>
      have stops := List.head?_dropWhile_not (fun char : Char => decide (char ≠ '/')) text
      rw [after] at stops
      have separator : char = '/' := by simpa using stops
      exact Or.inr ⟨more, congrArg (· :: more) separator⟩

/-- What is left of a path after its end is removed is nothing, or ends with a step. -/
theorem takeWhile_dropTail (reversed : Text) :
    dropTail reversed = [] ∨ ((dropTail reversed).takeWhile (· ≠ '/') ≠ [] ∧
      (dropTail reversed).takeWhile (· ≠ '/') ≠ ['.']) := by
  fun_induction dropTail reversed with
  | case1 => exact Or.inl rfl
  | case2 rest ih => exact ih
  | case3 rest ih => exact ih
  | case4 => exact Or.inl rfl
  | case5 path nonempty noSeparator noHere notHere =>
      obtain ⟨rest, whole, after⟩ := exists_after_takeWhile path
      refine Or.inr ⟨fun empty => ?_, fun here => ?_⟩
      · rw [empty, List.nil_append] at whole
        rcases after with rfl | ⟨more, rfl⟩
        · exact nonempty whole.symm
        · exact noSeparator more whole.symm
      · rw [here, List.singleton_append] at whole
        rcases after with rfl | ⟨more, rfl⟩
        · exact notHere whole.symm
        · exact noHere more whole.symm

/-- A reversed path that begins with a name has that name as the last step. -/
theorem exists_steps_reverse {name rest : Text} (nonempty : name ≠ []) (noSeparator : '/' ∉ name)
    (notHere : name ≠ ['.']) (after : rest = [] ∨ ∃ more, rest = '/' :: more) :
    ∃ before, steps (name ++ rest).reverse = before ++ [name.reverse] := by
  have step : steps name.reverse = [name.reverse] := by
    refine steps_of_not_mem (fun none => nonempty (List.reverse_eq_nil_iff.mp none))
      (fun member => noSeparator (List.mem_reverse.mp member)) fun here => notHere ?_
    rw [← List.reverse_reverse name, here]
    rfl
  rcases after with rfl | ⟨more, rfl⟩
  · rw [List.append_nil]
    exact ⟨[], step⟩
  · rw [List.reverse_append, List.reverse_cons, List.append_assoc, List.singleton_append,
      steps_append_cons, step]
    exact ⟨steps more.reverse, rfl⟩

/-- Reading a path from its end finds its last name. -/
theorem baseName?_eq_lastName? (path : Text) : baseName? path = lastName? path := by
  have kept := steps_reverse_dropTail path.reverse
  rw [List.reverse_reverse] at kept
  rw [baseName?]
  rcases takeWhile_dropTail path.reverse with none | ⟨nonempty, notHere⟩
  · rw [lastName?, ← kept, none]
    rfl
  · have noSeparator : '/' ∉ (dropTail path.reverse).takeWhile (· ≠ '/') := fun member => by
      simpa using List.mem_takeWhile_imp member
    obtain ⟨rest, whole, after⟩ := exists_after_takeWhile (dropTail path.reverse)
    obtain ⟨before, last⟩ := exists_steps_reverse nonempty noSeparator notHere after
    rw [whole, kept] at last
    split
    · next none => exact (nonempty (List.reverse_eq_nil_iff.mp none)).elim
    · next parent =>
        rw [lastName?, last, parent, List.getLast?_concat]
        rfl
    · next notNone notParent => exact (lastName?_of_steps last notParent).symm

/-- A path is listed under its last name, or in full if it has none. -/
theorem fileName_eq (path : Text) : fileName path = (lastName? path).getD path := by
  rw [fileName, baseName?_eq_lastName?]

/-- A path to a parent is listed in full, even if names stand before its end. -/
example : fileName ['.', '/', 'a', '/', '.'] = ['a'] ∧
    fileName ['a', '/', '.', '.', '/'] = ['a', '/', '.', '.', '/'] := by
  decide

/-- A name at the end of a path is its last name. -/
theorem lastName?_of_names {path name : Text} (last : (names path).getLast? = some name)
    (notHere : name ≠ ['.']) (notParent : name ≠ ['.', '.']) : lastName? path = some name := by
  obtain ⟨before, same⟩ := List.getLast?_eq_some_iff.mp last
  have kept : [name].filter (· ≠ ['.']) = [name] :=
    List.filter_cons_of_pos (decide_eq_true notHere)
  have lastStep : steps path = before.filter (· ≠ ['.']) ++ [name] := by
    rw [steps, same, List.filter_append, kept]
  exact lastName?_of_steps lastStep notParent

/-- The last name of the path of a place is that of the place, whatever the root. -/
theorem lastName?_below {place : Place} (proper : ProperPlace place) (nonempty : place ≠ [])
    (root : Text) : lastName? (below root place) = place.getLast? := by
  have last := proper _ (List.getLast_mem nonempty)
  rw [List.getLast?_eq_some_getLast nonempty]
  refine lastName?_of_names ?_ last.notHere last.notParent
  rw [names_below proper, List.getLast?_append, List.getLast?_eq_some_getLast nonempty,
    Option.some_or]

end Path

end AssemblyDigest
