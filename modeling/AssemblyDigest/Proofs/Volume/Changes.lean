import AssemblyDigest.Proofs.Volume.Reach

/-! # Changes keep volumes well formed

Because the elements of a path can be looked up as names, a way through a well-formed volume
leads to a proper place, even where its last name is still missing
(`AssemblyDigest.Volume.WellFormed.of_resolve`). Putting a well-formed node at such a place,
or removing what is there, keeps the tree well formed, and so every volume that comes about
by changes is well formed (`AssemblyDigest.Volume.Made.wellFormed`).
-/

namespace AssemblyDigest

namespace Node

/-- Changing an entry keeps the names of a directory, or adds one that is new. -/
theorem map_fst_setEntry (name : Text) (change : Option Node → Node)
    (entries : List (Text × Node)) :
    (setEntry name change entries).map (·.1) =
      if name ∈ entries.map (·.1) then entries.map (·.1) else entries.map (·.1) ++ [name] := by
  induction entries with
  | nil => rfl
  | cons entry rest ih =>
      rw [setEntry]
      by_cases same : entry.1 = name
      · simp [same]
      · rw [if_neg same, List.map_cons, ih, List.map_cons]
        by_cases later : name ∈ rest.map (·.1)
        · rw [if_pos later, if_pos (List.mem_cons_of_mem _ later)]
        · have absent : name ∉ entry.1 :: rest.map (·.1) := by
            intro member
            rcases List.mem_cons.mp member with here | there
            · exact same here.symm
            · exact later there
          rw [if_neg later, if_neg absent, List.cons_append]

/-- The entries after a change are the old ones and the one that has been changed. -/
theorem mem_setEntry {name : Text} {change : Option Node → Node}
    {entries : List (Text × Node)} {entry : Text × Node}
    (member : entry ∈ setEntry name change entries) :
    entry ∈ entries ∨ entry = (name, change none) ∨
      ∃ old, (name, old) ∈ entries ∧ entry = (name, change (some old)) := by
  induction entries with
  | nil =>
      rw [setEntry, List.mem_singleton] at member
      exact Or.inr (Or.inl member)
  | cons first rest ih =>
      rw [setEntry] at member
      split at member
      · next same =>
          rcases List.mem_cons.mp member with rfl | later
          · subst same
            exact Or.inr (Or.inr ⟨first.2, List.mem_cons_self, rfl⟩)
          · exact Or.inl (List.mem_cons_of_mem _ later)
      · rcases List.mem_cons.mp member with rfl | later
        · exact Or.inl List.mem_cons_self
        · rcases ih later with kept | new | ⟨old, present, changed⟩
          · exact Or.inl (List.mem_cons_of_mem _ kept)
          · exact Or.inr (Or.inl new)
          · exact Or.inr (Or.inr ⟨old, List.mem_cons_of_mem _ present, changed⟩)

theorem wellFormed_emptyDirectory : emptyDirectory.WellFormed :=
  .directory List.nodup_nil (fun _ member => (List.not_mem_nil member).elim)
    fun _ member => (List.not_mem_nil member).elim

/-- Putting a well-formed node at a proper place keeps a tree well formed. -/
theorem WellFormed.insert {new node : Node} (wellFormed : node.WellFormed)
    (newWellFormed : new.WellFormed) {place : Place} (proper : ProperPlace place) :
    (Node.insert new place node).WellFormed := by
  induction place generalizing node with
  | nil => exact newWellFormed
  | cons name rest ih =>
      cases wellFormed with
      | file bytes => exact .file bytes
      | link noNul => exact .link noNul
      | @directory entries distinct properEntries below =>
          have changed : ∀ old : Option Node, (∀ node, old = some node → node.WellFormed) →
              (Node.insert new rest (old.getD emptyDirectory)).WellFormed := by
            intro old oldWellFormed
            cases old with
            | none => exact ih wellFormed_emptyDirectory proper.tail
            | some node => exact ih (oldWellFormed node rfl) proper.tail
          apply WellFormed.directory
          · rw [map_fst_setEntry]
            split
            · exact distinct
            · next absent =>
                refine List.nodup_append.mpr ⟨distinct, List.pairwise_singleton _ _, ?_⟩
                rintro other member _ last rfl
                exact absent (List.mem_singleton.mp last ▸ member)
          · intro entry member
            rcases mem_setEntry member with kept | rfl | ⟨old, -, rfl⟩
            · exact properEntries entry kept
            · exact proper.head
            · exact proper.head
          · intro entry member
            rcases mem_setEntry member with kept | rfl | ⟨old, present, rfl⟩
            · exact below entry kept
            · exact changed none fun _ impossible => by cases impossible
            · refine changed (some old) fun node same => ?_
              cases same
              exact below _ present

/-- Removing what is at a place keeps a tree well formed. -/
theorem WellFormed.erase {node : Node} (wellFormed : node.WellFormed) (place : Place) :
    (node.erase place).WellFormed := by
  induction place generalizing node with
  | nil =>
      cases wellFormed with
      | file bytes => exact .file bytes
      | link noNul => exact .link noNul
      | directory distinct proper below => exact .directory distinct proper below
  | cons name rest ih =>
      cases wellFormed with
      | file bytes => cases rest <;> exact .file bytes
      | link noNul => cases rest <;> exact .link noNul
      | @directory entries distinct proper below =>
          cases rest with
          | nil =>
              apply WellFormed.directory
              · exact distinct.sublist (List.filter_sublist.map _)
              · exact fun entry member => proper entry (List.mem_filter.mp member).1
              · exact fun entry member => below entry (List.mem_filter.mp member).1
          | cons next rest =>
              have kept : ∀ entry : Text × Node,
                  (if entry.1 = name then (entry.1, Node.erase (next :: rest) entry.2)
                    else entry).1 = entry.1 := by
                intro entry
                split <;> rfl
              apply WellFormed.directory
              · rw [List.map_map]
                exact (List.map_congr_left fun entry _ => kept entry).symm ▸ distinct
              · intro entry member
                obtain ⟨old, present, rfl⟩ := List.mem_map.mp member
                rw [kept]
                exact proper old present
              · intro entry member
                obtain ⟨old, present, rfl⟩ := List.mem_map.mp member
                split
                · exact ih (below old present)
                · exact below old present

end Node

namespace Volume

variable {volume : Volume}

/-- The places of a well-formed volume where something stands are proper. -/
theorem WellFormed.proper_of_at? (wellFormed : volume.WellFormed) {place : Place} {node : Node}
    (stands : volume.at? place = some node) : ProperPlace place :=
  (Node.WellFormed.at? wellFormed stands).2

/-- What can be looked up and is not too long is a proper name. -/
theorem Passable.properName {purpose : Purpose} {here : Place} {name : Text}
    {rest : List Text} (passable : Passable purpose here name rest) (noSeparator : '/' ∉ name)
    (noNul : '\x00' ∉ name) : ProperName name := by
  have short := passable.short
  simp only [exceedsLimit, Bool.or_eq_false_iff, decide_eq_false_iff_not, Nat.not_lt] at short
  exact ⟨passable.nonempty, noSeparator, noNul, passable.notHere, passable.notParent, short.1⟩

/-- A way through a well-formed volume leads from proper places to proper places. -/
theorem Way.proper (wellFormed : volume.WellFormed) {purpose : Purpose} {links : Nat}
    {elements : List Text} {here place : Place}
    (way : Way volume purpose links elements here place) (clean : Path.Clean elements)
    (proper : ProperPlace here) : ProperPlace place := by
  have entered : ∀ {here : Place} {entries : List (Text × Node)} {name : Text} {node : Node},
      volume.at? here = some (.directory entries) → entries.lookup name = some node →
        ProperPlace (here ++ [name]) := fun directory found =>
    wellFormed.proper_of_at? (at?_append_name directory found)
  induction way with
  | done links here => exact proper
  | stay directory dot way ih => exact ih clean.tail proper
  | parent directory way ih =>
      exact ih clean.tail fun name member => proper name ((List.dropLast_sublist _).subset member)
  | enter directory passable found plain way ih => exact ih clean.tail (entered directory found)
  | @jump links name target rest here place entries directory passable found through way ih =>
      have linked := (Node.WellFormed.at? wellFormed (at?_append_name directory found)).1
      cases linked with
      | link noNul =>
          refine ih (List.forall_mem_append.mpr ⟨Path.clean_elements noNul, clean.tail⟩) ?_
          split
          · exact .nil
          · exact proper
  | link directory passable found inspecting => exact entered directory found
  | @missing links name here entries directory passable absent creating =>
      obtain ⟨noSeparator, noNul⟩ := clean name List.mem_cons_self
      have properName := passable.properName noSeparator noNul
      exact proper.append (List.forall_mem_singleton.mpr properName)

/-- **Paths lead to proper places** of a well-formed volume. -/
theorem WellFormed.of_resolve (wellFormed : volume.WellFormed) {purpose : Purpose} {path : Text}
    {place : Place} (resolved : volume.resolve purpose path = .ok place) :
    ProperPlace place := by
  obtain ⟨noNul, nonempty, -, way⟩ := resolve_eq_ok_iff.mp resolved
  refine way.proper wellFormed (Path.clean_elements noNul) ?_
  cases elements : Path.elements path with
  | nil =>
      rw [origin, if_pos (Path.isAbsolute_of_elements_eq_nil nonempty elements)]
      exact .nil
  | cons element rest =>
      rw [elements] at way
      obtain ⟨entries, directory⟩ := way.exists_directory
      exact wellFormed.proper_of_at? directory

/-- Putting a well-formed node where a path leads keeps a volume well formed. -/
theorem WellFormed.insert (wellFormed : volume.WellFormed) {purpose : Purpose} {path : Text}
    {place : Place} (resolved : volume.resolve purpose path = .ok place) {node : Node}
    (newWellFormed : node.WellFormed) : (volume.insert place node).WellFormed :=
  Node.WellFormed.insert wellFormed newWellFormed (wellFormed.of_resolve resolved)

/-- A file is written where the path leads, unless a directory stands there. -/
theorem resolve_of_outputPlace {path : Text} {place : Place}
    (output : volume.outputPlace path = .ok place) :
    volume.resolve .create path = .ok place ∧
      ∀ entries, volume.at? place ≠ some (.directory entries) := by
  obtain ⟨target, resolved, output⟩ := exists_of_bind_eq_ok output
  split at output
  · cases output
  · next notDirectory =>
      cases output
      exact ⟨resolved, notDirectory⟩

/-- Writing a file keeps a volume well formed. -/
theorem WellFormed.write (wellFormed : volume.WellFormed) {path : Text} {bytes : Bytes}
    {written : Volume} (wrote : volume.write path bytes = .ok written) : written.WellFormed := by
  obtain ⟨place, output, wrote⟩ := exists_of_bind_eq_ok wrote
  cases wrote
  exact wellFormed.insert (resolve_of_outputPlace output).1 (.file bytes)

/-- Making directories keeps a volume well formed. -/
theorem WellFormed.makeDirectoriesBelow (wellFormed : volume.WellFormed) {path : Text}
    {names : List Text} {made : Volume}
    (makes : volume.makeDirectoriesBelow path names = .ok made) : made.WellFormed := by
  induction names generalizing volume path with
  | nil =>
      cases makes
      exact wellFormed
  | cons name rest ih =>
      unfold Volume.makeDirectoriesBelow at makes
      dsimp only at makes
      split at makes
      · exact ih wellFormed makes
      · cases makes
      · cases makes
      · obtain ⟨place, resolved, makes⟩ := exists_of_bind_eq_ok makes
        exact ih (wellFormed.insert resolved Node.wellFormed_emptyDirectory) makes

/-- Making a directory and those above it keeps a volume well formed. -/
theorem WellFormed.makeDirectory (wellFormed : volume.WellFormed) {path : Text} {made : Volume}
    (makes : volume.makeDirectory path = .ok made) : made.WellFormed :=
  wellFormed.makeDirectoriesBelow makes

/-- Adding a file keeps a volume well formed. -/
theorem WellFormed.addFile (wellFormed : volume.WellFormed) {path : Text} {bytes : Bytes}
    {added : Volume} (adds : volume.addFile path bytes = .ok added) : added.WellFormed := by
  obtain ⟨made, makes, adds⟩ := exists_of_bind_eq_ok adds
  exact (wellFormed.makeDirectoriesBelow makes).write adds

/-- Adding a link keeps a volume well formed. -/
theorem WellFormed.addLink (wellFormed : volume.WellFormed) {path target : Text}
    (noNul : '\x00' ∉ target) {added : Volume} (adds : volume.addLink path target = .ok added) :
    added.WellFormed := by
  obtain ⟨made, makes, adds⟩ := exists_of_bind_eq_ok adds
  have madeWellFormed := wellFormed.makeDirectoriesBelow makes
  dsimp only at adds
  split at adds
  · next place looked =>
      cases adds
      exact madeWellFormed.insert looked (.link noNul)
  · obtain ⟨place, resolved, adds⟩ := exists_of_bind_eq_ok adds
    cases adds
    exact madeWellFormed.insert resolved (.link noNul)

/-- Removing something keeps a volume well formed. -/
theorem WellFormed.remove (wellFormed : volume.WellFormed) {path : Text} {left : Volume}
    (removes : volume.remove path = .ok left) : left.WellFormed := by
  obtain ⟨place, -, removes⟩ := exists_of_bind_eq_ok removes
  cases removes
  exact Node.WellFormed.erase wellFormed place

/-- Volumes that come about from an empty one by changes. -/
inductive Made : Volume → Prop
  | empty (current : Place) : Made ⟨.emptyDirectory, current, []⟩
  | makeDirectory {volume made : Volume} {path : Text} (before : Made volume)
      (makes : volume.makeDirectory path = .ok made) : Made made
  | addFile {volume added : Volume} {path : Text} {bytes : Bytes} (before : Made volume)
      (adds : volume.addFile path bytes = .ok added) : Made added
  | addLink {volume added : Volume} {path target : Text} (before : Made volume)
      (noNul : '\x00' ∉ target) (adds : volume.addLink path target = .ok added) : Made added
  | write {volume written : Volume} {path : Text} {bytes : Bytes} (before : Made volume)
      (wrote : volume.write path bytes = .ok written) : Made written
  | remove {volume left : Volume} {path : Text} (before : Made volume)
      (removes : volume.remove path = .ok left) : Made left
  | obstruct {volume : Volume} (before : Made volume) (place : Place) (cause : AccessFault) :
      Made (volume.obstruct place cause)

/-- **Volumes are well formed**, however they came about. -/
theorem Made.wellFormed (made : Made volume) : volume.WellFormed := by
  induction made with
  | empty current => exact Node.wellFormed_emptyDirectory
  | makeDirectory before makes ih => exact ih.makeDirectory makes
  | addFile before adds ih => exact ih.addFile adds
  | addLink before noNul adds ih => exact ih.addLink noNul adds
  | write before wrote ih => exact ih.write wrote
  | remove before removes ih => exact ih.remove removes
  | obstruct before place cause ih => exact ih

end Volume

end AssemblyDigest
