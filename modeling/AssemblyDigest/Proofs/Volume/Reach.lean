import AssemblyDigest.Proofs.Volume.Way
import AssemblyDigest.Volume.Content

/-! # Reaching what lies below a root

If a root leads to a node, the path of a place below the root leads to what stands at that
place in the node, provided that no link stands there and the path is not too long
(`AssemblyDigest.Volume.resolve_below`); a path that is too long leads nowhere
(`AssemblyDigest.Volume.resolve_of_long`). Elements in front are followed first, so that a way can
be left after them and another be taken from there (`AssemblyDigest.Volume.Way.exists_middle`).
-/

namespace AssemblyDigest

namespace Volume

variable {volume : Volume}

/-- A computation that ends well has ended well in both of its parts. -/
theorem exists_of_bind_eq_ok {ε α β : Type} {first : Except ε α} {next : α → Except ε β} {b : β}
    (ended : (first >>= next) = .ok b) : ∃ a, first = .ok a ∧ next a = .ok b := by
  cases first with
  | error _ => cases ended
  | ok a => exact ⟨a, rfl, ended⟩

/-- What stands below a place is what the node there holds. -/
theorem at?_append {place names : Place} {start : Node}
    (stands : volume.at? place = some start) :
    volume.at? (place ++ names) = start.at? names := by
  unfold at? at stands ⊢
  rw [Node.at?_append, stands, Option.bind_some]

/-- What a name in a directory leads to stands at the place below the directory. -/
theorem at?_append_name {here : Place} {entries : List (Text × Node)} {name : Text} {node : Node}
    (directory : volume.at? here = some (.directory entries))
    (found : entries.lookup name = some node) : volume.at? (here ++ [name]) = some node := by
  rw [at?_append directory, Node.at?_directory_cons, found, Option.bind_some, Node.at?_nil]

/-- Whether a name is looked up depends on the purpose only for creating and for canonical
paths. -/
theorem Passable.transfer {purpose other : Purpose} {here : Place} {name : Text}
    {rest : List Text} (passable : Passable purpose here name rest) (keeps : other ≠ .create)
    (free : other ≠ .canonical) (others : List Text) : Passable other here name others where
  nonempty := passable.nonempty
  notHere := passable.notHere
  notParent := passable.notParent
  noDirectory := fun creating => keeps creating.1
  short := by
    have short := passable.short
    simp only [exceedsLimit, Bool.or_eq_false_iff, decide_eq_false_iff_not] at short ⊢
    exact ⟨short.1, by simp [free]⟩

/-- What can be passed for any purpose can be passed to reach something. -/
theorem Passable.reach {purpose : Purpose} {here : Place} {name : Text} {rest : List Text}
    (passable : Passable purpose here name rest) (others : List Text) :
    Passable .reach here name others :=
  passable.transfer (by decide) (by decide) others

/-- A way can be left after its first elements, and another be taken from there with as many
links. The induction is on the number of links, and between two links on the elements. -/
theorem Way.exists_middle {first old : List Text} {links : Nat} {here place : Place}
    (way : Way volume .reach links (first ++ old) here place) :
    ∃ middle left, Way volume .reach left old middle place ∧
      ∀ new target, Way volume .reach left new middle target →
        Way volume .reach links (first ++ new) here target := by
  induction links using Nat.strongRecOn generalizing first here with
  | ind links fewerLinks =>
      induction first generalizing here with
      | nil => exact ⟨here, links, way, fun new target way => way⟩
      | cons name rest ih =>
          rw [List.cons_append] at way
          generalize same : rest ++ old = elements at way
          cases way with
          | stay directory dot way =>
              obtain ⟨middle, left, ended, onward⟩ := ih (same ▸ way)
              exact ⟨middle, left, ended, fun new target way =>
                .stay directory dot (onward new target way)⟩
          | parent directory way =>
              obtain ⟨middle, left, ended, onward⟩ := ih (same ▸ way)
              exact ⟨middle, left, ended, fun new target way =>
                .parent directory (onward new target way)⟩
          | enter directory passable found plain way =>
              obtain ⟨middle, left, ended, onward⟩ := ih (same ▸ way)
              exact ⟨middle, left, ended, fun new target way =>
                .enter directory (passable.reach _) found plain
                  (onward new target way)⟩
          | jump directory passable found through way =>
              rw [← same, ← List.append_assoc] at way
              obtain ⟨middle, left, ended, onward⟩ := fewerLinks _ (Nat.lt_succ_self _) way
              refine ⟨middle, left, ended, fun new target way => ?_⟩
              have continued := onward new target way
              rw [List.append_assoc] at continued
              exact .jump directory (passable.reach _) found
                (fun looking => by cases looking.1) continued
          | link directory passable found inspecting => cases inspecting
          | missing directory passable absent creating => cases creating

/-- The names of a place below a node lead there, unless a link stands there. -/
theorem way_of_names {here : Place} {start node : Node} {names : Place}
    (stands : volume.at? here = some start) (proper : ProperPlace names)
    (leads : start.at? names = some node) (plain : ∀ target, node ≠ .link target) (links : Nat) :
    Way volume .reach links names here (here ++ names) := by
  induction names generalizing here start with
  | nil =>
      rw [List.append_nil]
      exact .done links here
  | cons name rest ih =>
      cases start with
      | file bytes => cases leads
      | link target => cases leads
      | directory entries =>
          rw [Node.at?_directory_cons] at leads
          obtain ⟨child, found, leads⟩ := Option.bind_eq_some_iff.mp leads
          have passable : Passable .reach here name rest := by
            refine ⟨proper.head.nonempty, proper.head.notHere, proper.head.notParent,
              (fun creating => by cases creating.1), ?_⟩
            simpa [exceedsLimit] using proper.head.short
          have notLink : ∀ target, child ≠ .link target := by
            rintro target rfl
            cases rest with
            | nil => exact plain target (Option.some.inj leads).symm
            | cons _ _ => cases leads
          have way := ih (at?_append_name stands found) proper.tail leads
          rw [List.append_assoc, List.singleton_append] at way
          exact .enter stands passable found notLink way

/-- When a path can be followed. -/
theorem resolve_eq_ok_iff {purpose : Purpose} {path : Text} {place : Place} :
    volume.resolve purpose path = .ok place ↔
      '\x00' ∉ path ∧ path ≠ [] ∧ ¬ (purpose ≠ .canonical ∧ pathLimit ≤ path.byteLength) ∧
        Way volume purpose linkLimit (Path.elements path) (volume.origin path) place := by
  unfold resolve
  rw [← follow_eq_ok_iff]
  split
  · simp [*]
  · split
    · simp [*]
    · split
      · simp [*]
      · simp [*]

/-- When a path leads to a node. -/
theorem find_eq_ok_iff {purpose : Purpose} {path : Text} {node : Node} :
    volume.find purpose path = .ok node ↔
      ∃ place, volume.resolve purpose path = .ok place ∧ volume.at? place = some node := by
  constructor
  · intro found
    obtain ⟨place, resolved, found⟩ := exists_of_bind_eq_ok found
    refine ⟨place, resolved, ?_⟩
    split at found
    · next stands =>
        cases found
        exact stands
    · cases found
  · rintro ⟨place, resolved, stands⟩
    simp only [find, resolved, bind, Except.bind, stands]

/-- The canonical path is that of the place to which the path leads. -/
theorem canonicalPath_eq_ok_iff {path text : Text} :
    volume.canonicalPath path = .ok text ↔
      ∃ place, volume.resolve .canonical path = .ok place ∧ text = pathOf place := by
  rw [canonicalPath]
  cases resolved : volume.resolve .canonical path with
  | error cause => simp [Except.map]
  | ok place => simp [Except.map, eq_comm]

/-- When a path leads to a file. -/
theorem isFile_eq_true_iff {path : Text} :
    volume.isFile path = true ↔ ∃ place bytes, volume.resolve .reach path = .ok place ∧
      volume.at? place = some (.file bytes) := by
  unfold isFile
  constructor
  · intro isFile
    split at isFile
    · next node found =>
        obtain ⟨place, resolved, stands⟩ := find_eq_ok_iff.mp found
        cases node with
        | file bytes => exact ⟨place, bytes, resolved, stands⟩
        | link target => cases isFile
        | directory entries => cases isFile
    · cases isFile
  · rintro ⟨place, bytes, resolved, stands⟩
    rw [find_eq_ok_iff.mpr ⟨place, resolved, stands⟩]
    rfl

/-- What an empty element at the end of a path leads to is where it stands. -/
theorem Way.eq_of_done {old : List Text} (ending : old = [] ∨ old = [[]]) {links : Nat}
    {here place : Place} (way : Way volume .reach links old here place) : here = place := by
  rcases ending with rfl | rfl
  · cases way
    rfl
  · cases way with
    | stay directory dot way =>
        cases way
        rfl
    | enter directory passable found plain way => exact (passable.nonempty rfl).elim
    | jump directory passable found through way => exact (passable.nonempty rfl).elim
    | link directory passable found inspecting => cases inspecting
    | missing directory passable absent creating => cases creating

/-- A longer path leads on from where a path leads, if its further elements do. -/
theorem resolve_of_further {path longer : Text} {place target : Place} {new : List Text}
    (resolved : volume.resolve .reach path = .ok place) (begins : path <+: longer)
    (noNul : '\x00' ∉ path → '\x00' ∉ longer) (short : longer.byteLength < pathLimit)
    (elements : Path.elements longer = Path.names path ++ new)
    (continued : ∀ links, Way volume .reach links new place target) :
    volume.resolve .reach longer = .ok target := by
  obtain ⟨pathNoNul, nonempty, -, way⟩ := resolve_eq_ok_iff.mp resolved
  obtain ⟨old, ending, oldElements⟩ := Path.exists_ending path
  refine resolve_eq_ok_iff.mpr ⟨noNul pathNoNul, ?_, ?_, ?_⟩
  · intro none
    rw [none, List.prefix_nil] at begins
    exact nonempty begins
  · exact fun long => Nat.not_le.mpr short long.2
  · rw [oldElements] at way
    rw [elements, origin, Path.isAbsolute_of_extends nonempty begins]
    obtain ⟨middle, left, ended, onward⟩ := way.exists_middle
    cases ended.eq_of_done ending
    exact onward new target (continued left)

/-- **What lies below a root** is reached by its path, at the same place below the place of the
root. -/
theorem resolve_below {root : Text} {place names : Place} {start node : Node}
    (resolved : volume.resolve .reach root = .ok place) (stands : volume.at? place = some start)
    (proper : ProperPlace names) (leads : start.at? names = some node)
    (plain : ∀ target, node ≠ .link target)
    (short : (Path.below root names).byteLength < pathLimit) :
    volume.resolve .reach (Path.below root names) = .ok (place ++ names) := by
  by_cases empty : names = []
  · subst empty
    rw [List.append_nil]
    exact resolved
  · exact resolve_of_further resolved (Path.isPrefix_below proper root)
      (fun absent => Path.nul_not_mem_below absent proper) short
      (Path.elements_below proper empty root) (way_of_names stands proper leads plain)

/-- Separators after a path to a directory lead to the same directory. -/
theorem find_append_separators {path : Text} {entries : List (Text × Node)}
    (found : volume.find .reach path = .ok (.directory entries)) {count : Nat}
    (short : (path ++ List.replicate count '/').byteLength < pathLimit) :
    volume.find .reach (path ++ List.replicate count '/') = .ok (.directory entries) := by
  obtain ⟨place, resolved, stands⟩ := find_eq_ok_iff.mp found
  obtain ⟨new, ending, elements⟩ := Path.exists_ending (path ++ List.replicate count '/')
  rw [Path.names_append_separators] at elements
  refine find_eq_ok_iff.mpr ⟨place,
    resolve_of_further resolved (List.prefix_append _ _) ?_ short elements fun links => ?_, stands⟩
  · intro absent member
    rcases List.mem_append.mp member with member | member
    · exact absent member
    · exact absurd (List.eq_of_mem_replicate member) (by decide)
  · rcases ending with rfl | rfl
    · exact .done links place
    · exact .stay stands (Or.inl rfl) (.done links place)

/-- A path that is too long leads nowhere. -/
theorem resolve_of_long {path : Text} (noNul : '\x00' ∉ path)
    (long : pathLimit ≤ path.byteLength) : volume.resolve .reach path = .error .nameTooLong := by
  have nonempty : path ≠ [] := by
    rintro rfl
    exact absurd long (by decide)
  rw [resolve, if_neg noNul, if_neg nonempty, if_pos ⟨by decide, long⟩]

/-- A path into a well-formed volume leads to a well-formed tree. -/
theorem WellFormed.of_find (wellFormed : volume.WellFormed) {purpose : Purpose} {path : Text}
    {node : Node} (found : volume.find purpose path = .ok node) : node.WellFormed := by
  obtain ⟨place, -, stands⟩ := find_eq_ok_iff.mp found
  exact (Node.WellFormed.at? wellFormed stands).1

end Volume

end AssemblyDigest
