import AssemblyDigest.Proofs.Volume.Enumeration
import AssemblyDigest.Volume.Content
import Mathlib.Data.List.Sort

/-! # Volumes that differ in contents only

Two trees are *alike* if they have nodes at the same places and the nodes are of the same
kinds, links with the same targets. The files at a place may hold different bytes, or one may be
readable where the other is not, and directories may list their entries in different orders. Paths
are followed by the kinds of nodes alone (`AssemblyDigest.Volume.advance_cons`), so a path leads to
the same place in alike volumes. A walk of a well-formed tree is determined by its places and kinds
as well (`AssemblyDigest.Node.Alike.files_eq`). Only reading a file looks at bytes.
-/

namespace AssemblyDigest

namespace Node

/-- What a node is, apart from the bytes of a file and the entries of a directory. -/
inductive Kind where
  | file
  | link (target : Text)
  | directory
  deriving DecidableEq

/-- The kind of a node. -/
def kind : Node → Kind
  | .file _ => .file
  | .link target => .link target
  | .directory _ => .directory

/-- The kind of what stands at a place. -/
def kindAt (node : Node) (place : Place) : Option Kind :=
  (node.at? place).map kind

/-- Trees with nodes of the same kinds at the same places. -/
def Alike (first second : Node) : Prop :=
  ∀ place, first.kindAt place = second.kindAt place

theorem kindAt_eq_file_iff {node : Node} {place : Place} :
    node.kindAt place = some .file ↔ ∃ bytes, node.at? place = some (.file bytes) := by
  rw [kindAt, Option.map_eq_some_iff]
  constructor
  · rintro ⟨found, stands, same⟩
    cases found with
    | file bytes => exact ⟨bytes, stands⟩
    | link target => cases same
    | directory entries => cases same
  · rintro ⟨bytes, stands⟩
    exact ⟨.file bytes, stands, rfl⟩

theorem kindAt_eq_directory_iff {node : Node} {place : Place} :
    node.kindAt place = some .directory ↔
      ∃ entries, node.at? place = some (.directory entries) := by
  rw [kindAt, Option.map_eq_some_iff]
  constructor
  · rintro ⟨found, stands, same⟩
    cases found with
    | file bytes => cases same
    | link target => cases same
    | directory entries => exact ⟨entries, stands⟩
  · rintro ⟨entries, stands⟩
    exact ⟨.directory entries, stands, rfl⟩

/-- What stands below a directory is looked up among its entries. -/
theorem kindAt_append_name {node : Node} {here : Place} {entries : List (Text × Node)}
    (directory : node.at? here = some (.directory entries)) (name : Text) :
    node.kindAt (here ++ [name]) = (entries.lookup name).map kind := by
  rw [kindAt, at?_append, directory, Option.bind_some, at?_directory_cons]
  cases entries.lookup name with
  | none => rfl
  | some child => rw [Option.bind_some, at?_nil]

namespace Alike

variable {first second : Node}

/-- Alike nodes are two files, the same link, or two directories. -/
theorem cases (alike : Alike first second) :
    (∃ bytes other, first = .file bytes ∧ second = .file other) ∨
      (∃ target, first = .link target ∧ second = .link target) ∨
      ∃ entries others, first = .directory entries ∧ second = .directory others := by
  have same : first.kind = second.kind := by
    have top := alike []
    rw [kindAt, kindAt, at?_nil, at?_nil] at top
    exact Option.some.inj top
  cases first with
  | file bytes =>
      cases second with
      | file other => exact Or.inl ⟨bytes, other, rfl, rfl⟩
      | link target => cases same
      | directory entries => cases same
  | link target =>
      cases second with
      | file other => cases same
      | link aim =>
          cases same
          exact Or.inr (Or.inl ⟨target, rfl, rfl⟩)
      | directory entries => cases same
  | directory entries =>
      cases second with
      | file other => cases same
      | link target => cases same
      | directory others => exact Or.inr (Or.inr ⟨entries, others, rfl, rfl⟩)

/-- Alike trees have alike nodes at each place, or nothing there. -/
theorem at?_cases (alike : Alike first second) (place : Place) :
    (first.at? place = none ∧ second.at? place = none) ∨
      ∃ one other, first.at? place = some one ∧ second.at? place = some other ∧
        Alike one other := by
  have same := alike place
  rw [kindAt, kindAt] at same
  cases stands : first.at? place with
  | none =>
      rw [stands, Option.map_none, eq_comm, Option.map_eq_none_iff] at same
      exact Or.inl ⟨rfl, same⟩
  | some one =>
      rw [stands, Option.map_some, eq_comm, Option.map_eq_some_iff] at same
      obtain ⟨other, otherStands, -⟩ := same
      refine Or.inr ⟨one, other, rfl, otherStands, fun rest => ?_⟩
      have below := alike (place ++ rest)
      simp only [kindAt, at?_append, stands, otherStands, Option.bind_some] at below
      exact below

/-- Alike trees list the same places. -/
theorem listing_eq (alike : Alike first second) {places others : List Place}
    (listing : first.Listing places) (otherListing : second.Listing others) :
    places = others := by
  apply List.Pairwise.eq_of_mem_iff listing.ordered otherListing.ordered
  intro place
  rw [listing.mem_iff, otherListing.mem_iff, ← kindAt_eq_file_iff, ← kindAt_eq_file_iff,
    alike place]

/-- Alike trees have the same directories that cannot be opened. -/
theorem unopenable_iff (alike : Alike first second) (path : Text) (place : Place) :
    first.Unopenable path place ↔ second.Unopenable path place := by
  rw [Unopenable, Unopenable, ← kindAt_eq_directory_iff, ← kindAt_eq_directory_iff, alike place]

theorem firstUnopenable_eq (alike : Alike first second) {path : Text} {place other : Place}
    (ends : first.FirstUnopenable path place) (otherEnds : second.FirstUnopenable path other) :
    place = other := by
  have notAfter : ¬ Place.Before other place :=
    ends.least other ((alike.unopenable_iff path other).mpr otherEnds.unopenable)
  have notBefore : ¬ Place.Before place other :=
    otherEnds.least place ((alike.unopenable_iff path place).mp ends.unopenable)
  exact Place.eq_of_not_before notBefore notAfter

/-- **Walks of alike trees** find the same paths, or end at the same directory. -/
theorem files_eq (alike : Alike first second) (wellFormed : first.WellFormed)
    (otherWellFormed : second.WellFormed) (path : Text) :
    first.files path = second.files path := by
  by_cases openable : ∀ place, ¬ first.Unopenable path place
  · have otherOpenable : ∀ place, ¬ second.Unopenable path place := fun place long =>
      openable place ((alike.unopenable_iff path place).mpr long)
    obtain ⟨places, listing, found⟩ := wellFormed.exists_listing path openable
    obtain ⟨others, otherListing, otherFound⟩ :=
      otherWellFormed.exists_listing path otherOpenable
    rw [found, otherFound, alike.listing_eq listing otherListing]
  · obtain ⟨long, unopenable⟩ := not_forall_not.mp openable
    have otherUnopenable := (alike.unopenable_iff path long).mp unopenable
    obtain ⟨place, ends, failed⟩ :=
      wellFormed.exists_first_unopenable path ⟨long, unopenable⟩
    obtain ⟨other, otherEnds, otherFailed⟩ :=
      otherWellFormed.exists_first_unopenable path ⟨long, otherUnopenable⟩
    rw [failed, otherFailed, alike.firstUnopenable_eq ends otherEnds]

end Alike

theorem exists_of_isDirectory {node : Node} (isDirectory : node.isDirectory = true) :
    ∃ entries, node = .directory entries := by
  cases node with
  | file bytes => cases isDirectory
  | link target => cases isDirectory
  | directory entries => exact ⟨entries, rfl⟩

/-- The subdirectories are the names under which directories stand. -/
theorem WellFormed.mem_subdirectories {node : Node} (wellFormed : node.WellFormed)
    (name : Text) : name ∈ node.subdirectories ↔ node.kindAt [name] = some .directory := by
  rw [kindAt_eq_directory_iff]
  cases wellFormed with
  | file bytes => simp [subdirectories, entries, sortByName]
  | link noNul => simp [subdirectories, entries, sortByName]
  | @directory entries distinct proper below =>
      have member : ∀ entry, entry ∈ sortByName entries ↔ entry ∈ entries := fun entry =>
        (perm_sortByName entries).mem_iff
      simp only [subdirectories, Node.entries, List.mem_map, List.mem_filter, member]
      constructor
      · rintro ⟨entry, ⟨present, isDirectory⟩, rfl⟩
        have leads := at?_cons_of_mem distinct present []
        rw [at?_nil] at leads
        obtain ⟨inner, same⟩ := exists_of_isDirectory isDirectory
        exact ⟨inner, same ▸ leads⟩
      · rintro ⟨inner, leads⟩
        obtain ⟨child, present, leads⟩ := exists_of_at?_cons leads
        rw [at?_nil] at leads
        obtain rfl := Option.some.inj leads
        exact ⟨(name, .directory inner), ⟨present, rfl⟩, rfl⟩

/-- The subdirectories are in the order of their names. -/
theorem WellFormed.pairwise_subdirectories {node : Node} (wellFormed : node.WellFormed) :
    node.subdirectories.Pairwise NameBefore := by
  have distinct : (node.entries.map (·.1)).Nodup := by
    cases wellFormed with
    | file bytes => exact List.nodup_nil
    | link noNul => exact List.nodup_nil
    | directory distinct proper below => exact distinct
  exact List.pairwise_map.mpr ((pairwise_sortByName_of_nodup distinct).filter _)

/-- Alike directories have the same subdirectories, in the same order. -/
theorem Alike.subdirectories_eq {first second : Node} (alike : Alike first second)
    (wellFormed : first.WellFormed) (otherWellFormed : second.WellFormed) :
    first.subdirectories = second.subdirectories := by
  apply List.Pairwise.eq_of_mem_iff wellFormed.pairwise_subdirectories
    otherWellFormed.pairwise_subdirectories
  intro name
  rw [wellFormed.mem_subdirectories, otherWellFormed.mem_subdirectories, alike [name]]

theorem lookup_cons_ite (entry : Text × Node) (rest : List (Text × Node)) (name : Text) :
    (entry :: rest).lookup name = if name = entry.1 then some entry.2 else rest.lookup name := by
  rw [List.lookup_cons]
  by_cases same : name = entry.1
  · rw [if_pos same, beq_iff_eq.mpr same]
  · rw [if_neg same, beq_eq_false_iff_ne.mpr same]

/-- A change of one entry is seen under its name only. -/
theorem lookup_setEntry (name : Text) (change : Option Node → Node)
    (entries : List (Text × Node)) (other : Text) :
    (setEntry name change entries).lookup other =
      if other = name then some (change (entries.lookup name)) else entries.lookup other := by
  induction entries with
  | nil => rw [setEntry, lookup_cons_ite, List.lookup_nil, List.lookup_nil]
  | cons entry rest ih =>
      rw [setEntry]
      by_cases here : entry.1 = name
      · subst here
        rw [if_pos rfl, lookup_cons_ite, lookup_cons_ite, lookup_cons_ite, if_pos rfl]
        by_cases same : other = entry.1
        · rw [if_pos same, if_pos same]
        · rw [if_neg same, if_neg same, if_neg same]
      · rw [if_neg here, lookup_cons_ite, ih, lookup_cons_ite, lookup_cons_ite,
          if_neg (Ne.symm here)]
        by_cases same : other = name
        · rw [if_pos same, if_pos same, if_neg (same ▸ Ne.symm here)]
        · rw [if_neg same, if_neg same]

/-- Replacing the bytes of a file gives an alike tree. -/
theorem alike_insert {node : Node} {place : Place} {bytes : Bytes}
    (stands : node.at? place = some (.file bytes)) (other : Bytes) :
    Alike node (insert (.file other) place node) := by
  induction place generalizing node with
  | nil =>
      rw [at?_nil] at stands
      obtain rfl := Option.some.inj stands
      intro place
      cases place <;> rfl
  | cons name rest ih =>
      cases node with
      | file content => cases stands
      | link target => cases stands
      | directory entries =>
          rw [at?_directory_cons] at stands
          obtain ⟨child, found, below⟩ := Option.bind_eq_some_iff.mp stands
          intro place
          cases place with
          | nil => rfl
          | cons first place =>
              rw [insert, kindAt, kindAt, at?_directory_cons, at?_directory_cons, lookup_setEntry]
              by_cases same : first = name
              · subst same
                rw [if_pos rfl, found, Option.getD_some]
                exact ih below place
              · rw [if_neg same]

end Node

namespace Volume

/-- A path is followed by the kinds of what stands on the way. -/
theorem advance_cons (volume : Volume) (purpose : Purpose)
    (jump : List Text → Place → Except AccessFault Place) (name : Text) (rest : List Text)
    (here : Place) :
    volume.advance purpose jump (name :: rest) here =
      if volume.root.kindAt here = some .directory then
        if name = [] ∨ name = ['.'] then volume.advance purpose jump rest here
        else if name = ['.', '.'] then volume.advance purpose jump rest here.dropLast
        else if purpose = .create ∧ rest = [[]] then .error .isDirectory
        else if exceedsLimit purpose here name then .error .nameTooLong
        else
          match volume.root.kindAt (here ++ [name]) with
          | none =>
              if purpose = .create ∧ rest = [] then .ok (here ++ [name]) else .error .notFound
          | some (.link target) =>
              if purpose = .inspect ∧ rest = [] then .ok (here ++ [name])
              else
                jump (Path.elements target ++ rest) (if Path.isAbsolute target then [] else here)
          | some _ => volume.advance purpose jump rest (here ++ [name])
      else .error .notDirectory := by
  by_cases directory : volume.root.kindAt here = some .directory
  · obtain ⟨entries, stands⟩ := Node.kindAt_eq_directory_iff.mp directory
    rw [if_pos directory, Node.kindAt_append_name stands, advance, at?, stands]
    dsimp only
    cases entries.lookup name with
    | none => rfl
    | some child => cases child <;> rfl
  · rw [if_neg directory, advance, at?]
    cases stands : volume.root.at? here with
    | none => rfl
    | some node =>
        cases node with
        | file bytes => rfl
        | link target => rfl
        | directory entries =>
            exact (directory (Node.kindAt_eq_directory_iff.mpr ⟨entries, stands⟩)).elim

/-- Volumes with alike trees and the same working directory. -/
structure Alike (first second : Volume) : Prop where
  root : first.root.Alike second.root
  current : first.current = second.current

/-- Whether the files of two volumes at a place hold different bytes, or are not kept from being
read by the same thing. -/
def DifferAt (first second : Volume) (place : Place) : Prop :=
  ∃ bytes other, first.at? place = some (.file bytes) ∧ second.at? place = some (.file other) ∧
    (bytes ≠ other ∨ first.obstacle? place ≠ second.obstacle? place)

/-- Volumes do not differ where the same stands and the same is in the way. -/
theorem not_differAt_of_eq {first second : Volume} {place : Place}
    (same : first.at? place = second.at? place)
    (sameObstacle : first.obstacle? place = second.obstacle? place) :
    ¬ DifferAt first second place := by
  rintro ⟨bytes, other, stands, otherStands, different⟩
  rw [← same, stands] at otherStands
  cases otherStands
  exact different.elim (fun unequal => unequal rfl) (fun unequal => unequal sameObstacle)

/-- Results of looking up a path that are alike nodes or the same fault. -/
inductive AlikeResults (one other : Except AccessFault Node) : Prop
  | fault (cause : AccessFault) (failed : one = .error cause) (otherFailed : other = .error cause)
  | node (first second : Node) (found : one = .ok first) (otherFound : other = .ok second)
      (alike : first.Alike second)

namespace Alike

variable {first second : Volume}

/-- Up to the first link a path is followed alike. -/
theorem advance_eq (alike : Alike first second) (purpose : Purpose)
    (jump : List Text → Place → Except AccessFault Place) :
    first.advance purpose jump = second.advance purpose jump := by
  funext elements here
  induction elements generalizing here with
  | nil => rw [advance, advance]
  | cons name rest ih =>
      rw [advance_cons, advance_cons, alike.root here, alike.root (here ++ [name]), ih here,
        ih here.dropLast, ih (here ++ [name])]

/-- A path is followed alike through any number of links. -/
theorem follow_eq (alike : Alike first second) (purpose : Purpose) (links : Nat) :
    first.follow purpose links = second.follow purpose links := by
  induction links with
  | zero => exact alike.advance_eq purpose _
  | succ links ih => rw [follow, follow, ih, alike.advance_eq]

/-- A path leads to the same place in alike volumes. -/
theorem resolve_eq (alike : Alike first second) (purpose : Purpose) (path : Text) :
    first.resolve purpose path = second.resolve purpose path := by
  unfold resolve origin
  rw [alike.current, alike.follow_eq]

/-- A path leads to alike nodes. -/
theorem of_find (alike : Alike first second) (purpose : Purpose) (path : Text) :
    AlikeResults (first.find purpose path) (second.find purpose path) := by
  unfold find
  rw [alike.resolve_eq]
  cases second.resolve purpose path with
  | error cause => exact .fault cause rfl rfl
  | ok place =>
      simp only [bind, Except.bind, at?]
      rcases alike.root.at?_cases place with
        ⟨nothing, otherNothing⟩ | ⟨one, other, stands, otherStands, alikeBelow⟩
      · rw [nothing, otherNothing]
        exact .fault .notFound rfl rfl
      · rw [stands, otherStands]
        exact .node one other rfl rfl alikeBelow

/-- A path leads to a file in both volumes or in neither. -/
theorem isFile_eq (alike : Alike first second) : first.isFile = second.isFile := by
  funext path
  unfold isFile
  cases alike.of_find .reach path with
  | fault cause failed otherFailed => rw [failed, otherFailed]
  | node one other found otherFound alikeBelow =>
      rw [found, otherFound]
      rcases alikeBelow.cases with
        ⟨_, _, rfl, rfl⟩ | ⟨_, rfl, rfl⟩ | ⟨_, _, rfl, rfl⟩ <;> rfl

/-- Walks of alike volumes start at alike nodes. -/
theorem of_walkStart (alike : Alike first second) (root : Text) :
    AlikeResults (first.walkStart root) (second.walkStart root) := by
  unfold walkStart
  cases alike.of_find .inspect root with
  | fault cause failed otherFailed =>
      rw [failed, otherFailed]
      exact .fault cause rfl rfl
  | node one other looked otherLooked alikeBelow =>
      rw [looked, otherLooked]
      rcases alikeBelow.cases with
        ⟨bytes, content, rfl, rfl⟩ | ⟨target, rfl, rfl⟩ | ⟨entries, others, rfl, rfl⟩
      · exact .node _ _ rfl rfl alikeBelow
      · -- Only a link is followed, and it decides whether a directory is walked.
        simp only [bind, Except.bind]
        cases alike.of_find .reach root with
        | fault cause failed otherFailed =>
            rw [failed, otherFailed]
            exact .fault cause rfl rfl
        | node reached otherReached found otherFound alikeReached =>
            rw [found, otherFound]
            rcases alikeReached.cases with
              ⟨bytes, content, rfl, rfl⟩ | ⟨aim, rfl, rfl⟩ | ⟨entries, others, rfl, rfl⟩
            · exact .node _ _ rfl rfl alikeBelow
            · exact .node _ _ rfl rfl alikeBelow
            · exact .node _ _ rfl rfl alikeReached
      · exact .node _ _ rfl rfl alikeBelow

/-- A file that is the same in both volumes is read alike. -/
theorem read_eq (alike : Alike first second) {path : Text}
    (same : ∀ place, first.resolve .reach path = .ok place → ¬ DifferAt first second place) :
    first.read path = second.read path := by
  unfold read
  rw [← alike.resolve_eq]
  cases resolved : first.resolve .reach path with
  | error cause => rfl
  | ok place =>
      simp only [bind, Except.bind, at?]
      rcases alike.root.at?_cases place with
        ⟨nothing, otherNothing⟩ | ⟨one, other, stands, otherStands, alikeBelow⟩
      · rw [nothing, otherNothing]
      · rw [stands, otherStands]
        rcases alikeBelow.cases with
          ⟨bytes, content, rfl, rfl⟩ | ⟨target, rfl, rfl⟩ | ⟨entries, others, rfl, rfl⟩
        · have equal : bytes = content ∧ first.obstacle? place = second.obstacle? place := by
            by_contra different
            exact same place resolved
              ⟨bytes, content, stands, otherStands, not_and_or.mp different⟩
          rw [equal.1, equal.2]
        · rfl
        · rfl

end Alike

/-- Volumes that differ in the bytes of one file are alike. -/
theorem alike_insert {volume : Volume} {place : Place} {bytes : Bytes}
    (stands : volume.at? place = some (.file bytes)) (other : Bytes) :
    Alike volume (volume.insert place (.file other)) :=
  ⟨Node.alike_insert stands other, rfl⟩

end Volume

end AssemblyDigest
