import AssemblyDigest.Proofs.Scope.Sources
import Mathlib.Data.List.Find
import Mathlib.Data.List.Infix

/-! # The source files under a declaration

A declaration walks the workspace once for each of its prefixes. What comes out is the
enumeration of all source files, restricted to each prefix in turn
(`AssemblyDigest.Scope.declaredSources_eq`): a source file comes up once for every prefix that
its path contains, so exactly the files that the declaration covers come up at all. Because
all walks fail alike, the first one decides whether there is a result.
-/

namespace AssemblyDigest

/-- A declaration covers the paths that contain one of its prefixes. -/
theorem Declaration.covers_iff (declaration : Declaration) (path : Text) :
    declaration.covers path = true ↔ ∃ part ∈ declaration.prefixes, part <:+: path := by
  simp only [covers, List.any_eq_true, Text.contains_eq_true_iff]

namespace Scope

variable {volume : Volume} {root extension : Text}

/-- Whether a path contains a prefix is decided by looking for it at each character. -/
theorem contains_eq_decide (part : Text) :
    Text.contains part = fun path => decide (part <:+: path) := by
  funext path
  rw [Bool.eq_iff_iff, Text.contains_eq_true_iff, decide_eq_true_eq]

/-- Paths restricted to those that contain a prefix, for one prefix after the other. -/
def selected (prefixes found : List Text) : List Text :=
  prefixes.flatMap fun part => found.filter fun path => part <:+: path

/-- The first prefix selects its paths before the others. -/
theorem selected_cons (part : Text) (parts found : List Text) :
    selected (part :: parts) found =
      (found.filter fun path => part <:+: path) ++ selected parts found :=
  List.flatMap_cons

/-- A path comes up once for every prefix it contains. -/
theorem count_selected {found : List Text} (distinct : found.Nodup) {path : Text}
    (member : path ∈ found) (prefixes : List Text) :
    (selected prefixes found).count path = prefixes.countP fun part => part <:+: path := by
  induction prefixes with
  | nil => rfl
  | cons part parts ih =>
      rw [selected_cons, List.count_append, ih, List.countP_cons, Nat.add_comm]
      by_cases within : part <:+: path
      · have kept : decide (part <:+: path) = true := decide_eq_true within
        have once : (found.filter fun path => part <:+: path).count path = 1 := by
          rw [List.count_filter (p := fun path => part <:+: path) kept, distinct.count,
            if_pos member]
        rw [once, if_pos kept]
      · have never : (found.filter fun path => part <:+: path).count path = 0 :=
          List.count_eq_zero.mpr fun kept =>
            within (of_decide_eq_true (List.mem_filter.mp kept).2)
        rw [never, if_neg fun holds => within (of_decide_eq_true holds)]

/-- The paths that come up are those that contain some prefix. -/
theorem mem_selected (prefixes found : List Text) (path : Text) :
    path ∈ selected prefixes found ↔ path ∈ found ∧ ∃ part ∈ prefixes, part <:+: path := by
  rw [selected, List.mem_flatMap]
  constructor
  · rintro ⟨part, listed, kept⟩
    obtain ⟨member, within⟩ := List.mem_filter.mp kept
    exact ⟨member, part, listed, of_decide_eq_true within⟩
  · rintro ⟨member, part, listed, within⟩
    exact ⟨part, listed, List.mem_filter.mpr ⟨member, decide_eq_true within⟩⟩

/-- With a single prefix the paths come up in their order. -/
theorem selected_of_single (part : Text) (found : List Text) :
    selected [part] found = found.filter fun path => part <:+: path := by
  rw [selected_cons]
  exact List.append_nil _

/-- A walk for one prefix finds the source files whose paths contain it. -/
theorem walk_of_part (part : Text) :
    (walk volume root fun path => hasExtension extension path && Text.contains part path) =
      (sources volume root extension).map (List.filter fun path => part <:+: path) := by
  rw [sources, ← contains_eq_decide]
  cases started : volume.walkStart root with
  | error cause =>
      rw [walk, walk, Scope.start, started]
      rfl
  | ok start =>
      cases walked : start.files root with
      | error long =>
          rw [walk_eq_error started walked, walk_eq_error started walked]
          rfl
      | ok paths =>
          rw [walk_eq_ok started walked, walk_eq_ok started walked, Except.map,
            List.filter_filter]
          simp only [Bool.and_comm]

/-- If the enumeration succeeds, each prefix selects from it. -/
theorem sourcesOfPrefixes_of_ok {found : List Text}
    (listed : sources volume root extension = .ok found) (prefixes : List Text) :
    sourcesOfPrefixes volume root extension prefixes = .ok (selected prefixes found) := by
  induction prefixes with
  | nil => rfl
  | cons part parts ih =>
      rw [sourcesOfPrefixes, walk_of_part, listed, ih]
      rfl

/-- If the enumeration fails, so does the walk for the first prefix. -/
theorem sourcesOfPrefixes_of_error {fault : Fault}
    (failed : sources volume root extension = .error fault) {prefixes : List Text}
    (nonempty : prefixes ≠ []) :
    sourcesOfPrefixes volume root extension prefixes = .error fault := by
  cases prefixes with
  | nil => exact (nonempty rfl).elim
  | cons part parts =>
      rw [sourcesOfPrefixes, walk_of_part, failed]
      rfl

/-- Under a declaration only source files come up. -/
theorem mem_sources_of_declaredSources {declaration : Declaration} {listed : List Text}
    (declared : declaredSources volume root declaration extension = .ok listed) {path : Text}
    (member : path ∈ listed) :
    ∃ found, sources volume root extension = .ok found ∧ path ∈ found := by
  rw [declaredSources] at declared
  cases enumerated : sources volume root extension with
  | ok found =>
      rw [sourcesOfPrefixes_of_ok enumerated] at declared
      obtain rfl := Except.ok.inj declared
      exact ⟨found, rfl, ((mem_selected _ found path).mp member).1⟩
  | error fault =>
      by_cases empty : declaration.prefixes = []
      · rw [empty, sourcesOfPrefixes] at declared
        obtain rfl := Except.ok.inj declared
        exact (List.not_mem_nil member).elim
      · rw [sourcesOfPrefixes_of_error enumerated empty] at declared
        cases declared

/-- Where a declaration is looked for below the start of a walk. -/
def Near (start : Node) (place : Place) : Prop :=
  place = [] ∨ ∃ sub ∈ start.subdirectories, place = [sub]

/-- The search for a declaration looks at files near the start only. -/
theorem findDeclaration_congr {first second : Volume} {name : Text} {one other : Node}
    (started : first.walkStart root = .ok one)
    (otherStarted : second.walkStart root = .ok other)
    (same : other.subdirectories = one.subdirectories)
    (alike : ∀ place, Near one place → second.isFile (Path.join (Path.below root place) name) =
      first.isFile (Path.join (Path.below root place) name)) :
    findDeclaration second root name = findDeclaration first root name := by
  have here : second.isFile (Path.join root name) = first.isFile (Path.join root name) :=
    alike [] (Or.inl rfl)
  have below : (one.subdirectories.map fun sub => Path.join (Path.join root sub) name).find?
      second.isFile = (one.subdirectories.map fun sub =>
        Path.join (Path.join root sub) name).find? first.isFile := by
    apply List.find?_congr
    intro path member
    obtain ⟨sub, present, rfl⟩ := List.mem_map.mp member
    exact alike [sub] (Or.inr ⟨sub, present, rfl⟩)
  simp only [findDeclaration, here, start_eq_ok started, start_eq_ok otherStarted, same, below,
    bind, Except.bind]

/-- A declaration that is found is a file near the start. -/
theorem exists_near_of_findDeclaration {name : Text} {start : Node}
    (started : volume.walkStart root = .ok start) {path : Text}
    (found : findDeclaration volume root name = .ok (some path)) :
    ∃ place, Near start place ∧ path = Path.join (Path.below root place) name ∧
      volume.isFile path = true := by
  rw [findDeclaration] at found
  split at found
  · next isFile =>
      cases found
      exact ⟨[], Or.inl rfl, rfl, isFile⟩
  · simp only [start_eq_ok started, bind, Except.bind, Except.ok.injEq] at found
    obtain ⟨sub, present, named⟩ := List.mem_map.mp (List.mem_of_find?_eq_some found)
    exact ⟨[sub], Or.inr ⟨sub, present, rfl⟩, named.symm, List.find?_some found⟩

/-- No declaration is found if there is none in the root and there are no directories below
it. -/
theorem findDeclaration_of_flat {name : Text} {start : Node}
    (noFile : volume.isFile (Path.join root name) = false)
    (started : volume.walkStart root = .ok start) (flat : start.subdirectories = []) :
    findDeclaration volume root name = .ok none := by
  simp only [findDeclaration, noFile, start_eq_ok started, flat, bind, Except.bind,
    Bool.false_eq_true, ↓reduceIte, List.map_nil, List.find?_nil]

/-- Without a declaration, all source files are in the scope. -/
theorem resolve_of_undeclared {options : Options} {found : List Text}
    (undeclared : findDeclaration volume root options.scopeFile = .ok none)
    (listed : sources volume root options.extension = .ok found) :
    resolve volume root options = .ok ⟨none, none, found⟩ := by
  simp only [resolve, undeclared, bind, Except.bind, Option.bind_none, sourcesUnder, listed]

/-- **The source files under a declaration** are the enumerated ones, for one prefix after
the other, which are those that the declaration covers; if the enumeration fails, so does any
declaration with a prefix. -/
theorem declaredSources_eq (wellFormed : volume.WellFormed) (root extension : Text)
    (declaration : Declaration) :
    (∀ path, declaration.covers path = true ↔ ∃ part ∈ declaration.prefixes, part <:+: path) ∧
    (∀ found, sources volume root extension = .ok found →
      declaredSources volume root declaration extension =
        .ok (selected declaration.prefixes found) ∧
      (∀ path ∈ found, (selected declaration.prefixes found).count path =
        declaration.prefixes.countP fun part => part <:+: path) ∧
      (∀ path, path ∈ selected declaration.prefixes found ↔
        path ∈ found ∧ declaration.covers path = true) ∧
      (∀ part, declaration.prefixes = [part] →
        selected declaration.prefixes found = found.filter fun path => part <:+: path) ∧
      ∀ other : Declaration, other.prefixes.Perm declaration.prefixes →
        ∃ permuted, declaredSources volume root other extension = .ok permuted ∧
          permuted.Perm (selected declaration.prefixes found)) ∧
    ∀ fault, sources volume root extension = .error fault →
      declaredSources volume root declaration extension =
        if declaration.prefixes = [] then .ok [] else .error fault := by
  refine ⟨declaration.covers_iff, ?_, ?_⟩
  · intro found listed
    obtain ⟨start, -, listing⟩ := sourceListing_of_sources wellFormed listed
    refine ⟨sourcesOfPrefixes_of_ok listed _, ?_, ?_, ?_, ?_⟩
    · intro path member
      exact count_selected listing.nodup member _
    · intro path
      rw [mem_selected, declaration.covers_iff]
    · intro part single
      rw [single]
      exact selected_of_single part found
    · intro other permutation
      exact ⟨_, sourcesOfPrefixes_of_ok listed _, permutation.flatMap_right _⟩
  · intro fault failed
    split
    · next empty => rw [declaredSources, empty, sourcesOfPrefixes]
    · next nonempty => exact sourcesOfPrefixes_of_error failed nonempty

/-- A declaration that lists one of its two prefixes twice. -/
def sampleDeclaration : Declaration where
  prefixes := [['x'], ['.', 's'], ['x']]

/-- The sample declaration selects from the source files of the sample workspace. -/
theorem declaredSources_of_sampleVolume :
    sampleVolume.WellFormed ∧
      ∃ found, sources sampleVolume ['w'] Options.standard.extension = .ok found ∧
        declaredSources sampleVolume ['w'] sampleDeclaration Options.standard.extension =
          .ok (selected sampleDeclaration.prefixes found) := by
  have wellFormed : sampleVolume.WellFormed := by decide
  have results := declaredSources_eq wellFormed ['w'] Options.standard.extension sampleDeclaration
  exact ⟨wellFormed, _, rfl, (results.2.1 _ rfl).1⟩

end Scope

end AssemblyDigest
