import AssemblyDigest.Proofs.Path.Below

/-! # Well-formed file trees

A file tree is well formed if the entries of each of its directories have proper and
different names, and no link has a target that holds U+0000. This is what a file system
maintains; it makes the name of an entry lead to that entry
(`AssemblyDigest.Node.lookup_of_mem`), so that a place names one node.
-/

namespace AssemblyDigest

namespace Node

/-- Trees in whose directories all entries have proper and different names, and whose links
have targets that can be followed. -/
inductive WellFormed : Node → Prop
  | file (bytes : Bytes) : WellFormed (.file bytes)
  | link {target : Text} (noNul : '\x00' ∉ target) : WellFormed (.link target)
  | directory {entries : List (Text × Node)} (distinct : (entries.map (·.1)).Nodup)
      (proper : ∀ entry ∈ entries, ProperName entry.1)
      (below : ∀ entry ∈ entries, WellFormed entry.2) : WellFormed (.directory entries)

/-- A directory with one proper entry is well formed if the entry is. -/
theorem WellFormed.single {name : Text} {node : Node} (proper : ProperName name)
    (wellFormed : WellFormed node) : WellFormed (.directory [(name, node)]) :=
  .directory (List.pairwise_singleton _ _) (List.forall_mem_singleton.mpr proper)
    (List.forall_mem_singleton.mpr wellFormed)

mutual

/-- Whether a tree is well formed. -/
def isWellFormed : Node → Bool
  | .file _ => true
  | .link target => decide ('\x00' ∉ target)
  | .directory entries => decide (entries.map (·.1)).Nodup && areWellFormed entries
termination_by structural node => node

/-- Whether entries have proper names and are themselves well formed. -/
def areWellFormed : List (Text × Node) → Bool
  | [] => true
  | (name, node) :: rest => decide (ProperName name) && isWellFormed node && areWellFormed rest
termination_by structural entries => entries

end

mutual

/-- Whether a node is well formed can be computed. -/
theorem isWellFormed_iff : (node : Node) → (node.isWellFormed = true ↔ node.WellFormed)
  | .file bytes => ⟨fun _ => .file bytes, fun _ => rfl⟩
  | .link target => by
      rw [isWellFormed, decide_eq_true_eq]
      constructor
      · exact .link
      · rintro (_ | noNul)
        exact noNul
  | .directory entries => by
      rw [isWellFormed, Bool.and_eq_true, decide_eq_true_eq, areWellFormed_iff entries]
      constructor
      · rintro ⟨distinct, each⟩
        exact .directory distinct (fun entry member => (each entry member).1)
          fun entry member => (each entry member).2
      · rintro (_ | _ | ⟨distinct, proper, below⟩)
        exact ⟨distinct, fun entry member => ⟨proper entry member, below entry member⟩⟩

theorem areWellFormed_iff : (entries : List (Text × Node)) →
    (areWellFormed entries = true ↔ ∀ entry ∈ entries, ProperName entry.1 ∧ entry.2.WellFormed)
  | [] => by simp [areWellFormed]
  | (name, node) :: rest => by
      rw [areWellFormed, Bool.and_eq_true, Bool.and_eq_true, decide_eq_true_eq,
        isWellFormed_iff node, areWellFormed_iff rest, List.forall_mem_cons]

end

instance (node : Node) : Decidable node.WellFormed :=
  decidable_of_iff _ (isWellFormed_iff node)

/-- With different names, the name of an entry leads to it. -/
theorem lookup_of_mem {entries : List (Text × Node)} (distinct : (entries.map (·.1)).Nodup)
    {entry : Text × Node} (member : entry ∈ entries) :
    entries.lookup entry.1 = some entry.2 := by
  induction entries with
  | nil => exact (List.not_mem_nil member).elim
  | cons other rest ih =>
      obtain ⟨absent, distinct⟩ := List.nodup_cons.mp distinct
      rcases List.mem_cons.mp member with rfl | later
      · exact List.lookup_cons_self
      · have different : entry.1 ≠ other.1 := fun same =>
          absent (List.mem_map.mpr ⟨entry, later, same⟩)
        rw [List.lookup_cons, beq_eq_false_iff_ne.mpr different]
        exact ih distinct later

/-- A name leads to an entry of that name. -/
theorem mem_of_lookup {entries : List (Text × Node)} {name : Text} {node : Node}
    (found : entries.lookup name = some node) : (name, node) ∈ entries := by
  obtain ⟨before, after, rfl, -⟩ := List.lookup_eq_some_iff.mp found
  exact List.mem_append_right _ List.mem_cons_self

@[simp] theorem at?_nil (node : Node) : node.at? [] = some node := by
  cases node <;> rfl

@[simp] theorem at?_directory_cons (entries : List (Text × Node)) (name : Text) (place : Place) :
    (directory entries).at? (name :: place) = (entries.lookup name).bind (·.at? place) := rfl

@[simp] theorem at?_file_cons (bytes : Bytes) (name : Text) (place : Place) :
    (file bytes).at? (name :: place) = none := rfl

@[simp] theorem at?_link_cons (target name : Text) (place : Place) :
    (link target).at? (name :: place) = none := rfl

/-- A place can be followed in two parts. -/
theorem at?_append (node : Node) (first second : Place) :
    node.at? (first ++ second) = (node.at? first).bind (·.at? second) := by
  induction first generalizing node with
  | nil => rw [List.nil_append, at?_nil, Option.bind_some]
  | cons name first ih =>
      cases node with
      | file bytes => rfl
      | link target => rfl
      | directory entries =>
          rw [List.cons_append, at?_directory_cons, at?_directory_cons, Option.bind_assoc]
          exact congrArg _ (funext fun child => ih child)

/-- What lies below a name is in the entry of that name. -/
theorem at?_cons_of_mem {entries : List (Text × Node)} (distinct : (entries.map (·.1)).Nodup)
    {entry : Text × Node} (member : entry ∈ entries) (place : Place) :
    (directory entries).at? (entry.1 :: place) = entry.2.at? place := by
  rw [at?_directory_cons, lookup_of_mem distinct member, Option.bind_some]

/-- A node below a directory is in one of its entries. -/
theorem exists_of_at?_cons {entries : List (Text × Node)} {name : Text} {place : Place}
    {node : Node} (found : (directory entries).at? (name :: place) = some node) :
    ∃ child, (name, child) ∈ entries ∧ child.at? place = some node := by
  rw [at?_directory_cons] at found
  obtain ⟨child, named, found⟩ := Option.bind_eq_some_iff.mp found
  exact ⟨child, mem_of_lookup named, found⟩

/-- What stands below a directory with one entry stands in that entry. -/
theorem at?_of_single {name other : Text} {child found : Node} {place : Place}
    (stands : (directory [(name, child)]).at? (other :: place) = some found) :
    child.at? place = some found := by
  obtain ⟨node, member, stands⟩ := exists_of_at?_cons stands
  cases List.mem_singleton.mp member
  exact stands

/-- A well-formed tree is well formed at each of its places, and the names that lead there
are proper. -/
theorem WellFormed.at? {node found : Node} (wellFormed : node.WellFormed) {place : Place}
    (leads : node.at? place = some found) : found.WellFormed ∧ ProperPlace place := by
  induction wellFormed generalizing place with
  | file bytes =>
      cases place with
      | nil =>
          cases leads
          exact ⟨.file bytes, .nil⟩
      | cons name place => cases leads
  | link noNul =>
      cases place with
      | nil =>
          cases leads
          exact ⟨.link noNul, .nil⟩
      | cons name place => cases leads
  | @directory entries distinct proper below ih =>
      cases place with
      | nil =>
          cases leads
          exact ⟨.directory distinct proper below, .nil⟩
      | cons name place =>
          obtain ⟨child, member, leads⟩ := exists_of_at?_cons leads
          obtain ⟨wellFormed, properPlace⟩ := ih _ member leads
          exact ⟨wellFormed, List.forall_mem_cons.mpr ⟨proper _ member, properPlace⟩⟩

end Node

/-- Volumes whose tree is well formed. -/
def Volume.WellFormed (volume : Volume) : Prop :=
  volume.root.WellFormed

instance (volume : Volume) : Decidable volume.WellFormed :=
  inferInstanceAs (Decidable volume.root.WellFormed)

end AssemblyDigest
