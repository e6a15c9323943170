import AssemblyDigest.Proofs.Text.Pieces
import AssemblyDigest.Volume.Resolution

/-! # Paths below a root

The names of a path are its elements apart from the empty ones. A proper name, such as a
directory can hold, is one element when it is joined to a path, so the path of a place below
a root has the names of the root followed by those of the place, and different places have
different paths (`AssemblyDigest.Path.below_injective`). The elements of any path hold neither
separators nor, if the path does not, U+0000 (`AssemblyDigest.Path.clean_elements`).
-/

namespace AssemblyDigest

/-- The names that a directory can hold. -/
structure ProperName (name : Text) : Prop where
  nonempty : name ≠ []
  noSeparator : '/' ∉ name
  noNul : '\x00' ∉ name
  notHere : name ≠ ['.']
  notParent : name ≠ ['.', '.']
  short : name.byteLength ≤ Volume.nameLimit

namespace ProperName

theorem iff_conditions (name : Text) :
    ProperName name ↔
      name ≠ [] ∧ '/' ∉ name ∧ '\x00' ∉ name ∧ name ≠ ['.'] ∧ name ≠ ['.', '.'] ∧
        name.byteLength ≤ Volume.nameLimit :=
  ⟨fun ⟨nonempty, noSeparator, noNul, notHere, notParent, short⟩ =>
      ⟨nonempty, noSeparator, noNul, notHere, notParent, short⟩,
    fun ⟨nonempty, noSeparator, noNul, notHere, notParent, short⟩ =>
      ⟨nonempty, noSeparator, noNul, notHere, notParent, short⟩⟩

instance (name : Text) : Decidable (ProperName name) :=
  decidable_of_iff _ (iff_conditions name).symm

end ProperName

/-- A place all of whose names are proper. -/
def ProperPlace (place : Place) : Prop :=
  ∀ name ∈ place, ProperName name

namespace ProperPlace

theorem nil : ProperPlace [] := fun _ member => (List.not_mem_nil member).elim

theorem append {first second : Place} (proper : ProperPlace first)
    (properToo : ProperPlace second) : ProperPlace (first ++ second) :=
  List.forall_mem_append.mpr ⟨proper, properToo⟩

theorem head {name : Text} {place : Place} (proper : ProperPlace (name :: place)) :
    ProperName name := proper name List.mem_cons_self

theorem tail {name : Text} {place : Place} (proper : ProperPlace (name :: place)) :
    ProperPlace place := fun other member => proper other (List.mem_cons_of_mem _ member)

end ProperPlace

namespace Path

/-- The elements of a path that are not empty. -/
def names (path : Text) : List Text :=
  (Text.splitOn '/' path).filter (· ≠ [])

/-- The path of a place below a root. -/
def below (root : Text) (place : Place) : Text :=
  place.foldl join root

@[simp] theorem below_nil (root : Text) : below root [] = root := rfl

@[simp] theorem below_cons (root name : Text) (place : Place) :
    below root (name :: place) = below (join root name) place := rfl

/-- The path of a place below a place goes through the upper place. -/
theorem below_append (root : Text) (first second : Place) :
    below root (first ++ second) = below (below root first) second := by
  rw [below, below, below, List.foldl_append]

/-- What stands between a base and a name joined to it. -/
def separator (base : Text) : Text :=
  if base.isEmpty || base.getLast? == some '/' then [] else ['/']

theorem isAbsolute_of_not_mem {name : Text} (noSeparator : '/' ∉ name) :
    isAbsolute name = false := by
  cases name with
  | nil => rfl
  | cons char name =>
      have different : char ≠ '/' := fun same => noSeparator (by simp [same])
      simpa [isAbsolute] using different

/-- A relative name is appended, after a separator if one is missing. -/
theorem join_eq {name : Text} (relative : isAbsolute name = false) (base : Text) :
    join base name = base ++ separator base ++ name := by
  simp only [join, relative, Bool.false_eq_true, ↓reduceIte, separator]
  split
  · rw [List.append_nil]
  · rw [List.append_assoc, List.singleton_append]

/-- A text without separators is a single name. -/
theorem names_of_not_mem {name : Text} (nonempty : name ≠ []) (noSeparator : '/' ∉ name) :
    names name = [name] := by
  simp only [names, Text.splitOn_of_not_mem noSeparator, ne_eq, nonempty, not_false_eq_true,
    decide_true, List.filter_cons_of_pos, List.filter_nil]

/-- The names on both sides of a separator follow each other. -/
theorem names_append_cons (first second : Text) :
    names (first ++ '/' :: second) = names first ++ names second := by
  rw [names, Text.splitOn_append_cons, List.filter_append, names, names]

/-- The names of a path joined to another follow those of the other. -/
theorem names_join {name : Text} (relative : isAbsolute name = false) (base : Text) :
    names (join base name) = names base ++ names name := by
  rw [join_eq relative, separator]
  split
  · next joined =>
      rw [List.append_nil]
      rcases Bool.or_eq_true_iff.mp joined with empty | ends
      · rw [List.isEmpty_iff.mp empty]
        rfl
      · obtain ⟨shorter, rfl⟩ := List.getLast?_eq_some_iff.mp (beq_iff_eq.mp ends)
        have closed : names (shorter ++ ['/']) = names shorter :=
          (names_append_cons shorter []).trans (List.append_nil _)
        rw [closed, List.append_assoc, List.singleton_append, names_append_cons]
  · rw [List.append_assoc, List.singleton_append, names_append_cons]

end Path

namespace ProperName

variable {name : Text}

theorem relative (proper : ProperName name) : Path.isAbsolute name = false :=
  Path.isAbsolute_of_not_mem proper.noSeparator

theorem names_eq (proper : ProperName name) : Path.names name = [name] :=
  Path.names_of_not_mem proper.nonempty proper.noSeparator

end ProperName

namespace Path

/-- The names of a path below a root are those of the root and of the place. -/
theorem names_below {place : Place} (proper : ProperPlace place) (root : Text) :
    names (below root place) = names root ++ place := by
  induction place generalizing root with
  | nil => rw [below_nil, List.append_nil]
  | cons name place ih =>
      rw [below_cons, ih proper.tail, names_join proper.head.relative, proper.head.names_eq,
        List.append_assoc, List.singleton_append]

/-- Different places have different paths. -/
theorem below_injective {root : Text} {first second : Place} (proper : ProperPlace first)
    (properToo : ProperPlace second) (same : below root first = below root second) :
    first = second := by
  have names := congrArg names same
  rw [names_below proper, names_below properToo] at names
  exact List.append_cancel_left names

/-- Separators after a path add no names. -/
theorem names_append_separators (path : Text) (count : Nat) :
    names (path ++ List.replicate count '/') = names path := by
  induction count generalizing path with
  | zero => rw [List.replicate_zero, List.append_nil]
  | succ count ih =>
      have shifted : path ++ List.replicate (count + 1) '/' =
          path ++ ['/'] ++ List.replicate count '/' := by
        rw [List.replicate_succ, List.append_assoc, List.singleton_append]
      rw [shifted, ih, names_append_cons]
      exact List.append_nil _

/-- A name joined to a path that ends with a separator follows it directly. -/
theorem join_append_separators {name : Text} (proper : ProperName name) (path : Text)
    (count : Nat) :
    join (path ++ List.replicate (count + 1) '/') name =
      path ++ List.replicate (count + 1) '/' ++ name := by
  have ending : (path ++ List.replicate (count + 1) '/').getLast? = some '/' := by
    rw [List.replicate_succ', ← List.append_assoc, List.getLast?_concat]
  rw [join_eq proper.relative, separator, ending, beq_self_eq_true, Bool.or_true, if_pos rfl,
    List.append_nil]

/-- The elements of a path are its names, perhaps with an empty one after them. -/
theorem exists_ending (path : Text) :
    ∃ ending : List Text, (ending = [] ∨ ending = [[]]) ∧
      elements path = names path ++ ending := by
  rw [elements, ← names]
  split
  · next none => exact ⟨[], Or.inl rfl, by rw [none, List.append_nil]⟩
  · split
    · exact ⟨[[]], Or.inr rfl, rfl⟩
    · exact ⟨[], Or.inl rfl, (List.append_nil _).symm⟩

/-- A path that ends with a name has just its names as elements. -/
theorem elements_join {name : Text} (nonempty : name ≠ []) (noSeparator : '/' ∉ name)
    (base : Text) : elements (join base name) = names base ++ [name] := by
  have relative := isAbsolute_of_not_mem noSeparator
  have ending : (join base name).getLast? ≠ some '/' := by
    rw [join_eq relative, List.getLast?_append, List.getLast?_eq_some_getLast nonempty,
      Option.some_or]
    exact fun last => noSeparator (Option.some.inj last ▸ List.getLast_mem nonempty)
  rw [← names_of_not_mem nonempty noSeparator, ← names_join relative, elements, ← names]
  split
  · next none => exact none.symm
  · rw [if_neg (by simpa using ending)]

/-- A path below a root has the names of the root and of the place as elements. -/
theorem elements_below {place : Place} (proper : ProperPlace place) (nonempty : place ≠ [])
    (root : Text) : elements (below root place) = names root ++ place := by
  have last := proper _ (List.getLast_mem nonempty)
  have init : ProperPlace place.dropLast := fun name member =>
    proper name (List.dropLast_subset place member)
  rw [← List.dropLast_concat_getLast nonempty, below_append, below_cons, below_nil,
    elements_join last.nonempty last.noSeparator, names_below init, List.append_assoc]

/-- Joining names to a path keeps its start. -/
theorem isPrefix_below {place : Place} (proper : ProperPlace place) (root : Text) :
    root <+: below root place := by
  induction place generalizing root with
  | nil => exact List.prefix_rfl
  | cons name place ih =>
      have joined : root <+: join root name := by
        rw [join_eq proper.head.relative, List.append_assoc]
        exact List.prefix_append _ _
      exact joined.trans (ih proper.tail _)

/-- A longer path starts where the path it extends starts. -/
theorem isAbsolute_of_extends {path longer : Text} (nonempty : path ≠ [])
    (begins : path <+: longer) : isAbsolute longer = isAbsolute path := by
  obtain ⟨rest, rfl⟩ := begins
  cases path with
  | nil => exact (nonempty rfl).elim
  | cons char path => rfl

/-- Joining leaves an absolute path absolute. -/
theorem isAbsolute_join {base : Text} (absolute : isAbsolute base = true) (name : Text) :
    isAbsolute (join base name) = true := by
  cases base with
  | nil => cases absolute
  | cons char base =>
      unfold join
      split
      · assumption
      · split <;> exact absolute

/-- What is below an absolute path has an absolute path. -/
theorem isAbsolute_below {base : Text} (absolute : isAbsolute base = true) (place : Place) :
    isAbsolute (below base place) = true := by
  induction place generalizing base with
  | nil => exact absolute
  | cons name place ih => exact ih (isAbsolute_join absolute name)

/-- Joining proper names brings no U+0000 into a path. -/
theorem nul_not_mem_below {root : Text} (absent : '\x00' ∉ root) {place : Place}
    (proper : ProperPlace place) : '\x00' ∉ below root place := by
  induction place generalizing root with
  | nil => exact absent
  | cons name place ih =>
      refine ih ?_ proper.tail
      rw [join_eq proper.head.relative, separator]
      split <;> simp [absent, proper.head.noNul]

/-- Elements that can be looked up as names: they hold neither `/` nor U+0000. -/
def Clean (elements : List Text) : Prop :=
  ∀ element ∈ elements, '/' ∉ element ∧ '\x00' ∉ element

theorem Clean.tail {element : Text} {rest : List Text} (clean : Clean (element :: rest)) :
    Clean rest := fun other member => clean other (List.mem_cons_of_mem _ member)

/-- The elements of a path without U+0000 can be looked up. -/
theorem clean_elements {path : Text} (noNul : '\x00' ∉ path) : Clean (elements path) := by
  intro element member
  obtain ⟨ending, empty, same⟩ := exists_ending path
  have fromPath : element ∈ names path → '/' ∉ element ∧ '\x00' ∉ element := by
    intro named
    have piece := (List.mem_filter.mp named).1
    constructor
    · exact fun within => (Text.mem_of_mem_splitOn piece within).2 rfl
    · exact fun within => noNul (Text.mem_of_mem_splitOn piece within).1
  rw [same] at member
  rcases List.mem_append.mp member with named | last
  · exact fromPath named
  · rcases empty with rfl | rfl
    · exact (List.not_mem_nil last).elim
    · rw [List.mem_singleton.mp last]
      exact ⟨List.not_mem_nil, List.not_mem_nil⟩

/-- Only separators have no elements. -/
theorem isAbsolute_of_elements_eq_nil {path : Text} (nonempty : path ≠ [])
    (none : elements path = []) : isAbsolute path = true := by
  obtain ⟨ending, -, same⟩ := exists_ending path
  rw [none] at same
  have noNames : names path = [] := (List.append_eq_nil_iff.mp same.symm).1
  cases path with
  | nil => exact (nonempty rfl).elim
  | cons char rest =>
      by_cases separator : char = '/'
      · rw [separator]
        rfl
      · rw [names, Text.splitOn, if_neg separator] at noNames
        cases pieces : Text.splitOn '/' rest with
        | nil => exact (Text.splitOn_ne_nil '/' rest pieces).elim
        | cons first more =>
            rw [pieces, Text.consFirst, List.filter_cons_of_pos (by simp)] at noNames
            cases noNames

/-- A relative path that is not empty has a name. -/
theorem names_ne_nil {path : Text} (nonempty : path ≠ []) (relative : isAbsolute path = false) :
    names path ≠ [] := by
  intro none
  have noElements : elements path = [] := by rw [elements, ← names, none]
  rw [isAbsolute_of_elements_eq_nil nonempty noElements] at relative
  cases relative

/-- An empty name joined to a path asks for a directory. -/
theorem elements_join_nil {base : Text} (named : names base ≠ []) :
    elements (join base []) = names base ++ [[]] := by
  have relative : isAbsolute [] = false := rfl
  have last : (join base []).getLast? = some '/' := by
    rw [join_eq relative, separator, List.append_nil]
    split
    · next joined =>
        rw [List.append_nil]
        rcases Bool.or_eq_true_iff.mp joined with empty | ends
        · rw [List.isEmpty_iff.mp empty] at named
          exact (named rfl).elim
        · exact beq_iff_eq.mp ends
    · exact List.getLast?_concat
  have same : names (join base []) = names base :=
    (names_join relative base).trans (List.append_nil _)
  rw [elements, ← names, same]
  split
  · next none => exact (named none).elim
  · rw [last, if_pos (beq_self_eq_true _)]

/-- Joining a relative name to a path with names adds elements to them. -/
theorem exists_further {base name : Text} (named : names base ≠ [])
    (relative : isAbsolute name = false) :
    ∃ further, further ≠ [] ∧ elements (join base name) = names base ++ further := by
  by_cases empty : name = []
  · subst empty
    exact ⟨[[]], List.cons_ne_nil _ _, elements_join_nil named⟩
  · obtain ⟨ending, -, same⟩ := exists_ending (join base name)
    rw [names_join relative, List.append_assoc] at same
    exact ⟨names name ++ ending, List.append_ne_nil_of_left_ne_nil (names_ne_nil empty relative) _,
      same⟩

end Path

end AssemblyDigest
