import AssemblyDigest.Proofs.Volume.NameOrder
import AssemblyDigest.Proofs.Volume.WellFormed

/-! # What a walk finds

A directory of a tree is *unopenable* from a path if its own path text reaches the limit of
the system. A walk of a well-formed tree without such directories finds the files of the
tree, each once and in the order of their places
(`AssemblyDigest.Node.WellFormed.exists_listing`); otherwise it ends with the first such
directory in that order (`AssemblyDigest.Node.WellFormed.exists_first_unopenable`). Both are
proved along the tree, for one directory along its sorted entries.
-/

namespace AssemblyDigest

namespace Node

/-- The places of the files of a tree in their order, each once. -/
structure Listing (node : Node) (places : List Place) : Prop where
  mem_iff : ∀ place, place ∈ places ↔ ∃ bytes, node.at? place = some (.file bytes)
  ordered : places.Pairwise Place.Before

/-- A directory of a tree whose path is too long to be opened. -/
def Unopenable (node : Node) (path : Text) (place : Place) : Prop :=
  (∃ entries, node.at? place = some (.directory entries)) ∧
    Volume.pathLimit ≤ (Path.below path place).byteLength

/-- The files of the entries of a directory that has the given path. -/
def filesOf (path : Text) (entries : List (Text × Node)) : Except Text (List Text) :=
  gather (entries.map fun entry => (entry.1, entry.2.files (Path.join path entry.1)))

/-- The files of a directory are those of its entries, in the order of their names. -/
theorem files_directory {path : Text} {entries : List (Text × Node)}
    (openable : path.byteLength < Volume.pathLimit) :
    (directory entries).files path = filesOf path (sortByName entries) := by
  rw [files, if_neg (Nat.not_le.mpr openable), branches_eq_map,
    sortByName_map (fun entry : Text × Node => entry.2.files (Path.join path entry.1)), filesOf]

/-- What is found below the first entry comes before what is found below the others. -/
theorem filesOf_cons_ok {path : Text} {entry : Text × Node} {rest : List (Text × Node)}
    {first others : List Text} (found : entry.2.files (Path.join path entry.1) = .ok first)
    (foundRest : filesOf path rest = .ok others) :
    filesOf path (entry :: rest) = .ok (first ++ others) := by
  rw [filesOf] at foundRest
  rw [filesOf, List.map_cons, gather, found, foundRest]
  rfl

/-- A walk that ends below the first entry goes no further. -/
theorem filesOf_cons_error {path : Text} {entry : Text × Node} {rest : List (Text × Node)}
    {long : Text} (failed : entry.2.files (Path.join path entry.1) = .error long) :
    filesOf path (entry :: rest) = .error long := by
  rw [filesOf, List.map_cons, gather, failed]
  rfl

theorem filesOf_cons_later_error {path : Text} {entry : Text × Node}
    {rest : List (Text × Node)} {first : List Text} {long : Text}
    (found : entry.2.files (Path.join path entry.1) = .ok first)
    (failed : filesOf path rest = .error long) : filesOf path (entry :: rest) = .error long := by
  rw [filesOf] at failed
  rw [filesOf, List.map_cons, gather, found, failed]
  rfl

/-- A directory with one file has that file to find. -/
theorem files_of_single {path name : Text} {bytes : Bytes}
    (openable : path.byteLength < Volume.pathLimit) :
    (directory [(name, .file bytes)]).files path = .ok [Path.join path name] := by
  rw [files_directory openable]
  rfl

/-- Entries in strictly increasing order of their names. -/
abbrev Increasing (entries : List (Text × Node)) : Prop :=
  entries.Pairwise fun first second => NameBefore first.1 second.1

/-- If each entry is listed, the entries together are. -/
theorem filesOf_eq_ok (path : Text) {entries : List (Text × Node)}
    (increasing : Increasing entries)
    (each : ∀ entry ∈ entries, ∃ places, Listing entry.2 places ∧
      entry.2.files (Path.join path entry.1) =
        .ok (places.map (Path.below (Path.join path entry.1)))) :
    ∃ places : List Place, filesOf path entries = .ok (places.map (Path.below path)) ∧
      places.Pairwise Place.Before ∧
      ∀ place, place ∈ places ↔ ∃ entry ∈ entries, ∃ rest bytes,
        place = entry.1 :: rest ∧ entry.2.at? rest = some (.file bytes) := by
  induction entries with
  | nil =>
      refine ⟨[], rfl, .nil, fun place => ⟨fun member => (List.not_mem_nil member).elim, ?_⟩⟩
      rintro ⟨entry, member, -⟩
      exact (List.not_mem_nil member).elim
  | cons entry rest ih =>
      obtain ⟨least, increasingRest⟩ := List.pairwise_cons.mp increasing
      obtain ⟨first, listing, found⟩ := each entry List.mem_cons_self
      obtain ⟨others, foundRest, orderedRest, memRest⟩ :=
        ih increasingRest fun other member => each other (List.mem_cons_of_mem _ member)
      refine ⟨first.map (entry.1 :: ·) ++ others, ?_, ?_, fun place => ?_⟩
      · rw [filesOf_cons_ok found foundRest, List.map_append, List.map_map]
        rfl
      · refine List.pairwise_append.mpr ⟨?_, orderedRest, ?_⟩
        · exact List.pairwise_map.mpr
            (listing.ordered.imp fun before => (Place.before_cons_self _ _ _).mpr before)
        · intro place member other memberRest
          obtain ⟨inner, -, rfl⟩ := List.mem_map.mp member
          obtain ⟨later, laterMember, tail, bytes, rfl, -⟩ := (memRest other).mp memberRest
          exact Place.before_cons (least later laterMember) _ _
      · rw [List.mem_append, memRest]
        constructor
        · rintro (member | ⟨later, laterMember, found⟩)
          · obtain ⟨inner, innerMember, rfl⟩ := List.mem_map.mp member
            obtain ⟨bytes, leads⟩ := (listing.mem_iff inner).mp innerMember
            exact ⟨entry, List.mem_cons_self, inner, bytes, rfl, leads⟩
          · exact ⟨later, List.mem_cons_of_mem _ laterMember, found⟩
        · rintro ⟨later, laterMember, tail, bytes, rfl, leads⟩
          rcases List.mem_cons.mp laterMember with rfl | laterMember
          · exact Or.inl (List.mem_map_of_mem ((listing.mem_iff tail).mpr ⟨bytes, leads⟩))
          · exact Or.inr ⟨later, laterMember, tail, bytes, rfl, leads⟩

/-- An entry of a directory has an unopenable directory if the directory has it below. -/
theorem Unopenable.of_entry {entries : List (Text × Node)} {entry : Text × Node}
    {path : Text} {place : Place} (distinct : (entries.map (·.1)).Nodup)
    (member : entry ∈ entries) (long : Unopenable entry.2 (Path.join path entry.1) place) :
    Unopenable (directory entries) path (entry.1 :: place) := by
  obtain ⟨⟨inner, leads⟩, limit⟩ := long
  exact ⟨⟨inner, by rw [at?_cons_of_mem distinct member, leads]⟩, limit⟩

/-- An unopenable directory below a directory is in one of its entries. -/
theorem Unopenable.exists_entry {entries : List (Text × Node)} {path name : Text}
    {place : Place} (long : Unopenable (directory entries) path (name :: place)) :
    ∃ child, (name, child) ∈ entries ∧ Unopenable child (Path.join path name) place := by
  obtain ⟨⟨inner, leads⟩, limit⟩ := long
  obtain ⟨child, member, leads⟩ := exists_of_at?_cons leads
  exact ⟨child, member, ⟨inner, leads⟩, limit⟩

/-- **A walk without hindrance.** If every directory of a well-formed tree can be opened, a
walk finds the paths of its files, each once and in the order of their places. -/
theorem WellFormed.exists_listing {node : Node} (wellFormed : node.WellFormed) (path : Text)
    (openable : ∀ place, ¬ Unopenable node path place) :
    ∃ places, Listing node places ∧ node.files path = .ok (places.map (Path.below path)) := by
  induction wellFormed generalizing path with
  | file bytes =>
      refine ⟨[[]], ⟨fun place => ?_, List.pairwise_singleton _ _⟩, rfl⟩
      cases place with
      | nil => exact ⟨fun _ => ⟨bytes, rfl⟩, fun _ => List.mem_cons_self⟩
      | cons name place => simp
  | link noNul =>
      refine ⟨[], ⟨fun place => ?_, .nil⟩, rfl⟩
      cases place <;> simp
  | @directory entries distinct proper below ih =>
      have opened : path.byteLength < Volume.pathLimit :=
        Nat.not_le.mp fun limit => openable [] ⟨⟨entries, rfl⟩, limit⟩
      have sorted := perm_sortByName entries
      obtain ⟨places, found, ordered, memPlaces⟩ :=
        filesOf_eq_ok path (pairwise_sortByName_of_nodup distinct)
          fun entry member => ih entry (sorted.mem_iff.mp member) _ fun place long =>
            openable _ (.of_entry distinct (sorted.mem_iff.mp member) long)
      refine ⟨places, ⟨fun place => ?_, ordered⟩, (files_directory opened).trans found⟩
      rw [memPlaces]
      constructor
      · rintro ⟨entry, member, rest, bytes, rfl, leads⟩
        exact ⟨bytes, by rw [at?_cons_of_mem distinct (sorted.mem_iff.mp member), leads]⟩
      · rintro ⟨bytes, leads⟩
        cases place with
        | nil => cases leads
        | cons name place =>
            obtain ⟨child, member, leads⟩ := exists_of_at?_cons leads
            exact ⟨(name, child), sorted.mem_iff.mpr member, place, bytes, rfl, leads⟩

/-- What ends a walk: an unopenable directory with none before it. -/
structure FirstUnopenable (node : Node) (path : Text) (place : Place) : Prop where
  unopenable : Unopenable node path place
  least : ∀ other, Unopenable node path other → ¬ Place.Before other place

/-- Only one directory ends a walk. -/
theorem FirstUnopenable.eq {node : Node} {path : Text} {place other : Place}
    (first : FirstUnopenable node path place) (firstToo : FirstUnopenable node path other) :
    place = other :=
  Place.eq_of_not_before (firstToo.least place first.unopenable)
    (first.least other firstToo.unopenable)

/-- Along sorted entries, the first one with an unopenable directory ends the walk. -/
theorem filesOf_eq_error {path : Text} {entries : List (Text × Node)}
    (increasing : Increasing entries) (wellFormed : ∀ entry ∈ entries, entry.2.WellFormed)
    (each : ∀ entry ∈ entries, (∃ place, Unopenable entry.2 (Path.join path entry.1) place) →
      ∃ place, FirstUnopenable entry.2 (Path.join path entry.1) place ∧
        entry.2.files (Path.join path entry.1) =
          .error (Path.below (Path.join path entry.1) place))
    (present : ∃ entry ∈ entries, ∃ place, Unopenable entry.2 (Path.join path entry.1) place) :
    ∃ entry ∈ entries, ∃ place, Unopenable entry.2 (Path.join path entry.1) place ∧
      filesOf path entries = .error (Path.below path (entry.1 :: place)) ∧
      ∀ other ∈ entries, ∀ rest, Unopenable other.2 (Path.join path other.1) rest →
        ¬ Place.Before (other.1 :: rest) (entry.1 :: place) := by
  induction entries with
  | nil =>
      obtain ⟨entry, member, -⟩ := present
      exact (List.not_mem_nil member).elim
  | cons entry rest ih =>
      obtain ⟨least, increasingRest⟩ := List.pairwise_cons.mp increasing
      by_cases here : ∃ place, Unopenable entry.2 (Path.join path entry.1) place
      · obtain ⟨place, first, failed⟩ := each entry List.mem_cons_self here
        refine ⟨entry, List.mem_cons_self, place, first.unopenable,
          filesOf_cons_error failed, fun other member tail long => ?_⟩
        rcases List.mem_cons.mp member with rfl | later
        · rw [Place.before_cons_self]
          exact first.least tail long
        · exact Place.not_before_cons (least other later) _ _
      · have later : ∃ entry ∈ rest, ∃ place,
            Unopenable entry.2 (Path.join path entry.1) place := by
          obtain ⟨other, member, long⟩ := present
          rcases List.mem_cons.mp member with rfl | later
          · exact (here long).elim
          · exact ⟨other, later, long⟩
        obtain ⟨first, firstMember, place, unopenable, failed, leastRest⟩ :=
          ih increasingRest (fun other member => wellFormed other (List.mem_cons_of_mem _ member))
            (fun other member => each other (List.mem_cons_of_mem _ member)) later
        obtain ⟨places, -, found⟩ := (wellFormed entry List.mem_cons_self).exists_listing
          (Path.join path entry.1) fun place long => here ⟨place, long⟩
        refine ⟨first, List.mem_cons_of_mem _ firstMember, place, unopenable,
          filesOf_cons_later_error found failed, fun other member tail long => ?_⟩
        rcases List.mem_cons.mp member with rfl | otherMember
        · exact (here ⟨tail, long⟩).elim
        · exact leastRest other otherMember tail long

/-- **A walk that ends early.** If a well-formed tree has directories that cannot be opened,
a walk ends with the path of the first of them. -/
theorem WellFormed.exists_first_unopenable {node : Node} (wellFormed : node.WellFormed)
    (path : Text) (present : ∃ place, Unopenable node path place) :
    ∃ place, FirstUnopenable node path place ∧
      node.files path = .error (Path.below path place) := by
  induction wellFormed generalizing path with
  | file bytes =>
      obtain ⟨place, ⟨inner, leads⟩, -⟩ := present
      cases place <;> cases leads
  | link noNul =>
      obtain ⟨place, ⟨inner, leads⟩, -⟩ := present
      cases place <;> cases leads
  | @directory entries distinct proper below ih =>
      by_cases here : Volume.pathLimit ≤ path.byteLength
      · refine ⟨[], ⟨⟨⟨entries, rfl⟩, here⟩, fun other _ => Place.not_before_nil other⟩, ?_⟩
        rw [files, if_pos here, Path.below_nil]
      · have sorted := perm_sortByName entries
        have later : ∃ entry ∈ sortByName entries, ∃ place,
            Unopenable entry.2 (Path.join path entry.1) place := by
          obtain ⟨place, long⟩ := present
          cases place with
          | nil => exact (here long.2).elim
          | cons name place =>
              obtain ⟨child, member, long⟩ := long.exists_entry
              exact ⟨(name, child), sorted.mem_iff.mpr member, place, long⟩
        obtain ⟨entry, member, place, unopenable, failed, least⟩ :=
          filesOf_eq_error (pairwise_sortByName_of_nodup distinct)
            (fun entry member => below entry (sorted.mem_iff.mp member))
            (fun entry member => ih entry (sorted.mem_iff.mp member) _) later
        refine ⟨entry.1 :: place,
          ⟨.of_entry distinct (sorted.mem_iff.mp member) unopenable, fun other long => ?_⟩,
          (files_directory (Nat.not_le.mp here)).trans failed⟩
        cases other with
        | nil => exact (here long.2).elim
        | cons name tail =>
            obtain ⟨child, childMember, long⟩ := long.exists_entry
            exact least (name, child) (sorted.mem_iff.mpr childMember) tail long

/-- A walk of a well-formed tree ends well exactly if every directory can be opened. -/
theorem WellFormed.openable_iff {node : Node} (wellFormed : node.WellFormed) (path : Text) :
    (∀ place, ¬ Unopenable node path place) ↔ ∃ paths, node.files path = .ok paths := by
  constructor
  · intro openable
    obtain ⟨places, -, found⟩ := wellFormed.exists_listing path openable
    exact ⟨_, found⟩
  · rintro ⟨paths, found⟩ place long
    obtain ⟨first, -, failed⟩ := wellFormed.exists_first_unopenable path ⟨place, long⟩
    rw [found] at failed
    cases failed

end Node

end AssemblyDigest
