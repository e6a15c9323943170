import AssemblyDigest.Proofs.Scan.Workspace

/-! # What makes a scan fail

A scan of a relative root fails if the root leads nowhere. Otherwise the search for a declaration
cannot fail, and a declaration that cannot be read counts as none, so that two reasons are left: the
path of a directory is too long, where the walk ends, or there is a hindrance to reading a source
file (`AssemblyDigest.Scan.Fails`). There are no other reasons, and where all files may be read, the
hindrance is that the path of the source file is too long
(`AssemblyDigest.Scan.workspace_eq_error_iff`).
-/

namespace AssemblyDigest

namespace Volume

variable {volume : Volume} {root name : Text}

/-- If a relative name below a root leads to a file, the root leads to a directory. -/
theorem exists_find_of_isFile_join (nonempty : root ≠ []) (relative : Path.isAbsolute root = false)
    (relativeName : Path.isAbsolute name = false)
    (isFile : volume.isFile (Path.join root name) = true) :
    ∃ entries, volume.find .reach root = .ok (.directory entries) := by
  obtain ⟨place, bytes, resolved, -⟩ := isFile_eq_true_iff.mp isFile
  obtain ⟨noNul, -, short, way⟩ := resolve_eq_ok_iff.mp resolved
  obtain ⟨further, some, extended⟩ :=
    Path.exists_further (Path.names_ne_nil nonempty relative) relativeName
  obtain ⟨ending, either, elements⟩ := Path.exists_ending root
  have begins : root <+: Path.join root name := by
    rw [Path.join_eq relativeName, List.append_assoc]
    exact List.prefix_append _ _
  rw [extended, origin, Path.isAbsolute_of_extends nonempty begins] at way
  obtain ⟨middle, left, onward, leave⟩ := way.exists_middle
  obtain ⟨element, rest, rfl⟩ := List.exists_cons_of_ne_nil some
  obtain ⟨entries, directory⟩ := onward.exists_directory
  have ended : Way volume .reach left ending middle middle := by
    rcases either with rfl | rfl
    · exact .done left middle
    · exact .stay directory (Or.inl rfl) (.done left middle)
  refine ⟨entries, find_eq_ok_iff.mpr ⟨middle, resolve_eq_ok_iff.mpr
    ⟨fun within => noNul (begins.subset within), nonempty, fun long => short ⟨long.1, ?_⟩, ?_⟩,
    directory⟩⟩
  · obtain ⟨tail, same⟩ := begins
    rw [← same, Text.byteLength_append]
    exact Nat.le_add_right_of_le long.2
  · rw [elements, origin]
    exact leave ending middle ended

end Volume

namespace Node

/-- Only below a directory there are directories that cannot be opened. -/
theorem Unopenable.exists_entries {node : Node} {path : Text} {place : Place}
    (long : Unopenable node path place) : ∃ entries, node = .directory entries := by
  obtain ⟨⟨inner, stands⟩, -⟩ := long
  cases node with
  | file bytes => cases place <;> cases stands
  | link target => cases place <;> cases stands
  | directory entries => exact ⟨entries, rfl⟩

end Node

namespace Scope

variable {volume : Volume} {root : Text} {options : Options} {start : Node}

/-- The search for a declaration fails below a root that leads nowhere. -/
theorem findDeclaration_of_lost {name : Text} (nonempty : root ≠ [])
    (relative : Path.isAbsolute root = false) (relativeName : Path.isAbsolute name = false)
    {cause : AccessFault} (lost : volume.find .reach root = .error cause) :
    findDeclaration volume root name = .error (.walk root cause) := by
  have noFile : volume.isFile (Path.join root name) = false := by
    by_contra isFile
    obtain ⟨entries, found⟩ := Volume.exists_find_of_isFile_join nonempty relative relativeName
      (by simpa using isFile)
    rw [lost] at found
    cases found
  rw [findDeclaration, noFile, Scope.start, Volume.walkStart_eq_error_iff.mpr lost]
  rfl

/-- The search for a declaration ends well if the walk can start. -/
theorem exists_findDeclaration (started : volume.walkStart root = .ok start) (name : Text) :
    ∃ declarationPath, findDeclaration volume root name = .ok declarationPath := by
  rw [findDeclaration]
  split
  · exact ⟨_, rfl⟩
  · rw [start_eq_ok started]
    exact ⟨_, rfl⟩

/-- Whether a scan walks its root for source files. A declaration without prefixes spares the
walk. -/
def Walks (volume : Volume) (root : Text) (options : Options) : Prop :=
  ∀ path declaration, findDeclaration volume root options.scopeFile = .ok (some path) →
    readDeclaration volume path = some declaration → declaration.prefixes ≠ []

/-- If the walk succeeds or is spared, there is a scope. -/
theorem exists_resolve (started : volume.walkStart root = .ok start)
    (opens : Walks volume root options → ∃ paths, start.files root = .ok paths) :
    ∃ scope, resolve volume root options = .ok scope := by
  obtain ⟨declarationPath, searched⟩ := exists_findDeclaration started options.scopeFile
  have listed : ∃ files, sourcesUnder volume root (declarationPath.bind (readDeclaration volume))
      options.extension = .ok files := by
    by_cases walks : Walks volume root options
    · obtain ⟨paths, walked⟩ := opens walks
      have sourced := walk_eq_ok started walked (hasExtension options.extension)
      cases declarationPath.bind (readDeclaration volume) with
      | none => exact ⟨_, sourced⟩
      | some declaration => exact ⟨_, sourcesOfPrefixes_of_ok sourced _⟩
    · simp only [Walks, not_forall, ne_eq, not_not] at walks
      obtain ⟨path, declaration, found, read, empty⟩ := walks
      cases searched.symm.trans found
      rw [Option.bind_some, read, sourcesUnder, declaredSources, empty]
      exact ⟨[], rfl⟩
  obtain ⟨files, listed⟩ := listed
  simp only [resolve, searched, listed, bind, Except.bind]
  exact ⟨_, rfl⟩

/-- If the walk fails, there is no scope. -/
theorem resolve_of_unopenable (started : volume.walkStart root = .ok start) {long : Text}
    (failed : start.files root = .error long) (walks : Walks volume root options) :
    resolve volume root options = .error (.walk long .nameTooLong) := by
  obtain ⟨declarationPath, searched⟩ := exists_findDeclaration started options.scopeFile
  have sourced := walk_eq_error started failed (hasExtension options.extension)
  have unlisted : sourcesUnder volume root (declarationPath.bind (readDeclaration volume))
      options.extension = .error (.walk long .nameTooLong) := by
    cases declared : declarationPath.bind (readDeclaration volume) with
    | none => exact sourced
    | some declaration =>
        obtain ⟨path, rfl, read⟩ := Option.bind_eq_some_iff.mp declared
        exact sourcesOfPrefixes_of_error sourced (walks path declaration searched read)
  simp only [resolve, searched, unlisted, bind, Except.bind]

end Scope

namespace Scan

variable {volume : Volume} {root : Text} {options : Options} {fault : Fault}

/-- Why a scan fails. -/
inductive Fails (volume : Volume) (root : Text) (options : Options) : Fault → Prop
  /-- The root leads nowhere. -/
  | lost {cause : AccessFault} (unreached : volume.find .reach root = .error cause) :
      Fails volume root options (.walk root cause)
  /-- A directory is the first on the walk whose path is too long. -/
  | unopenable {node : Node} {place : Place} (found : volume.find .reach root = .ok node)
      (walks : Scope.Walks volume root options) (first : node.FirstUnopenable root place) :
      Fails volume root options (.walk (Path.below root place) .nameTooLong)
  /-- A source file is the first in the scope that there is a hindrance to. -/
  | unreadable {scope : Scope} {before after : List Text} {path : Text} {cause : AccessFault}
      (resolved : Scope.resolve volume root options = .ok scope)
      (division : scope.files = before ++ path :: after)
      (free : ∀ earlier ∈ before, volume.hindrance? earlier = none)
      (hindered : volume.hindrance? path = some cause) :
      Fails volume root options (.access path cause)

/-- Without a scope, a scan fails as its resolution did. -/
theorem workspace_of_resolve_error (failed : Scope.resolve volume root options = .error fault) :
    workspace volume root options = .error fault := by
  rw [workspace, failed]
  rfl

/-- Once there is a scope, a scan ends with a result or at the first hindrance. -/
theorem exists_ok_or_unreadable (wellFormed : volume.WellFormed) {scope : Scope}
    (resolved : Scope.resolve volume root options = .ok scope) :
    (∃ outcome, workspace volume root options = .ok outcome) ∨
      ∃ before path after cause, scope.files = before ++ path :: after ∧
        (∀ earlier ∈ before, volume.hindrance? earlier = none) ∧
        volume.hindrance? path = some cause := by
  cases found : scope.files.find? (volume.hindrance? · |>.isSome) with
  | some path =>
      obtain ⟨hindered, before, after, division, free⟩ := List.find?_eq_some_iff_append.mp found
      obtain ⟨cause, hindered⟩ := Option.isSome_iff_exists.mp hindered
      refine Or.inr ⟨before, path, after, cause, division, fun earlier member => ?_, hindered⟩
      simpa using free earlier member
  | none =>
      refine Or.inl ?_
      have free : ∀ path ∈ scope.files, volume.hindrance? path = none :=
        fun path member => by simpa using List.find?_eq_none.mp found path member
      by_cases empty : scope.files = []
      · exact ⟨_, workspace_of_no_files resolved empty⟩
      · obtain ⟨contents, report, stats, -, ended, -⟩ :=
          (workspace_of_resolve wellFormed resolved).2.1 empty free
        exact ⟨_, ended⟩

/-- A root that leads somewhere has a scope, unless the walk ends early. -/
theorem exists_resolve_or_unopenable (wellFormed : volume.WellFormed) {node : Node}
    (found : volume.find .reach root = .ok node) :
    (∃ scope, Scope.resolve volume root options = .ok scope) ∨
      Scope.Walks volume root options ∧ ∃ place, node.FirstUnopenable root place ∧
        Scope.resolve volume root options =
          .error (.walk (Path.below root place) .nameTooLong) := by
  cases started : volume.walkStart root with
  | error cause =>
      rw [Volume.walkStart_eq_error_iff.mp started] at found
      cases found
  | ok start =>
      by_cases opens : Scope.Walks volume root options → ∃ paths, start.files root = .ok paths
      · exact Or.inl (Scope.exists_resolve started opens)
      · obtain ⟨walks, closed⟩ := Classical.not_imp.mp opens
        have wellFormedStart := wellFormed.of_walkStart started
        rw [← wellFormedStart.openable_iff, not_forall_not] at closed
        obtain ⟨place, first, failed⟩ := wellFormedStart.exists_first_unopenable root closed
        obtain ⟨entries, rfl⟩ := first.unopenable.exists_entries
        have same : node = .directory entries := by
          rcases Volume.find_of_walkStart started with ⟨target, impossible, -⟩ | reached
          · cases impossible
          · exact Except.ok.inj (found.symm.trans reached)
        subst same
        exact Or.inr ⟨walks, place, first, Scope.resolve_of_unopenable started failed walks⟩

/-- Each of the reasons makes a scan fail. -/
theorem Fails.workspace_eq (wellFormed : volume.WellFormed) (nonempty : root ≠ [])
    (relative : Path.isAbsolute root = false)
    (relativeName : Path.isAbsolute options.scopeFile = false)
    (fails : Fails volume root options fault) : workspace volume root options = .error fault := by
  cases fails with
  | lost unreached =>
      apply workspace_of_resolve_error
      rw [Scope.resolve, Scope.findDeclaration_of_lost nonempty relative relativeName unreached]
      rfl
  | @unopenable node place found walks first =>
      obtain ⟨entries, rfl⟩ := first.unopenable.exists_entries
      have started := Volume.walkStart_of_find found
      obtain ⟨other, firstToo, failed⟩ :=
        (wellFormed.of_find found).exists_first_unopenable root ⟨place, first.unopenable⟩
      cases firstToo.eq first
      exact workspace_of_resolve_error (Scope.resolve_of_unopenable started failed walks)
  | unreadable resolved division free hindered =>
      exact workspace_of_hindered wellFormed resolved division free hindered

/-- Without a reason, a scan ends with a result. -/
theorem exists_ok_or_fails (wellFormed : volume.WellFormed) (root : Text) (options : Options) :
    (∃ outcome, workspace volume root options = .ok outcome) ∨
      ∃ fault, Fails volume root options fault := by
  cases found : volume.find .reach root with
  | error cause => exact Or.inr ⟨_, .lost found⟩
  | ok node =>
      rcases exists_resolve_or_unopenable wellFormed found with
        ⟨scope, resolved⟩ | ⟨walks, place, first, -⟩
      · rcases exists_ok_or_unreadable wellFormed resolved with
          ended | ⟨before, path, after, cause, division, free, hindered⟩
        · exact Or.inl ended
        · exact Or.inr ⟨_, .unreadable resolved division free hindered⟩
      · exact Or.inr ⟨_, .unopenable found walks first⟩

/-- **When a scan fails.** A scan of a relative root, for declarations with a relative name, fails
exactly for one of the reasons, with the fault that belongs to it, and has a result if there is
none. Where nothing keeps files from being read, a file that cannot be read has too long a path. -/
theorem workspace_eq_error_iff (wellFormed : volume.WellFormed) (nonempty : root ≠ [])
    (relative : Path.isAbsolute root = false)
    (relativeName : Path.isAbsolute options.scopeFile = false) :
    (∀ fault, workspace volume root options = .error fault ↔ Fails volume root options fault) ∧
      ((∃ outcome, workspace volume root options = .ok outcome) ↔
        ∀ fault, ¬ Fails volume root options fault) ∧
      ((∀ place, volume.obstacle? place = none) → ∀ path cause,
        Fails volume root options (.access path cause) →
          cause = .nameTooLong ∧ Volume.pathLimit ≤ path.byteLength) := by
  have failed : ∀ {fault}, Fails volume root options fault →
      workspace volume root options = .error fault := fun fails =>
    fails.workspace_eq wellFormed nonempty relative relativeName
  refine ⟨?_, ?_, ?_⟩
  · intro fault
    refine ⟨fun ended => ?_, failed⟩
    rcases exists_ok_or_fails wellFormed root options with ⟨outcome, result⟩ | ⟨other, fails⟩
    · cases ended.symm.trans result
    · cases ended.symm.trans (failed fails)
      exact fails
  · constructor
    · rintro ⟨outcome, result⟩ fault fails
      cases result.symm.trans (failed fails)
    · intro noReason
      rcases exists_ok_or_fails wellFormed root options with ended | ⟨fault, fails⟩
      · exact ended
      · exact (noReason fault fails).elim
  · intro free path cause fails
    cases fails with
    | unreadable resolved division freeBefore hindered =>
        exact Volume.hindrance?_of_free free hindered

/-- A scan of the sample workspace ends well, so that there is no reason for it to fail. -/
theorem workspace_ok_sampleVolume :
    Scope.sampleVolume.WellFormed ∧ ['w'] ≠ ([] : Text) ∧ Path.isAbsolute ['w'] = false ∧
      Path.isAbsolute Options.standard.scopeFile = false ∧
      (∃ outcome, workspace Scope.sampleVolume ['w'] .standard = .ok outcome) ∧
      ∀ fault, ¬ Fails Scope.sampleVolume ['w'] .standard fault := by
  have wellFormed : Scope.sampleVolume.WellFormed := by decide
  have ended : ∃ outcome, workspace Scope.sampleVolume ['w'] .standard = .ok outcome := ⟨_, rfl⟩
  exact ⟨wellFormed, List.cons_ne_nil _ _, rfl, rfl, ended,
    (workspace_eq_error_iff wellFormed (List.cons_ne_nil _ _) rfl rfl).2.1.mp ended⟩

/-- A name of 140 bytes. -/
def longName : Text := List.replicate 140 'd'

theorem byteLength_longName : longName.byteLength = 140 :=
  Text.byteLength_replicate 140 'd'

theorem properName_longName : ProperName longName where
  nonempty := List.cons_ne_nil _ _
  noSeparator := fun member => absurd (List.eq_of_mem_replicate member) (by decide)
  noNul := fun member => absurd (List.eq_of_mem_replicate member) (by decide)
  notHere := fun same => absurd (congrArg List.length same) (by simp [longName])
  notParent := fun same => absurd (congrArg List.length same) (by simp [longName])
  short := byteLength_longName ▸ by decide

/-- Directories with long names, one in the other. -/
def tower : Nat → Node
  | 0 => .emptyDirectory
  | height + 1 => .directory [(longName, tower height)]

/-- The innermost directory of a tower is empty. -/
theorem at?_tower (height : Nat) :
    (tower height).at? (List.replicate height longName) = some .emptyDirectory := by
  induction height with
  | zero => rfl
  | succ height ih =>
      rw [tower, List.replicate_succ, Node.at?_directory_cons, List.lookup_cons_self,
        Option.bind_some, ih]

theorem wellFormed_tower (height : Nat) : (tower height).WellFormed := by
  induction height with
  | zero => exact .directory List.nodup_nil (by simp) (by simp)
  | succ height ih => exact .single properName_longName ih

/-- There are no files in a tower. -/
theorem at?_tower_ne_file (height : Nat) (place : Place) (bytes : Bytes) :
    (tower height).at? place ≠ some (.file bytes) := by
  induction height generalizing place with
  | zero => cases place <;> exact fun stands => by cases stands
  | succ height ih =>
      cases place with
      | nil => exact fun stands => by cases stands
      | cons name place => exact fun stands => ih place (Node.at?_of_single stands)

/-- Every floor of a tower adds a name and a separator to the path. -/
theorem byteLength_below_longName {root : Text} (unended : root.getLast? ≠ some '/')
    (nonempty : root ≠ []) (height : Nat) :
    (Path.below root (List.replicate height longName)).byteLength =
      root.byteLength + height * 141 := by
  induction height generalizing root with
  | zero => rw [List.replicate_zero, Path.below_nil, Nat.zero_mul, Nat.add_zero]
  | succ height ih =>
      have joined : Path.join root longName = root ++ '/' :: longName := by
        have separated : Path.separator root = ['/'] := by
          simp [Path.separator, unended, nonempty]
        rw [Path.join_eq properName_longName.relative, separated, List.append_assoc,
          List.singleton_append]
      have ending : (root ++ '/' :: longName).getLast? = some 'd' := by
        rw [List.getLast?_append]
        rfl
      rw [List.replicate_succ, Path.below_cons, joined,
        ih (ending ▸ by decide) (List.append_ne_nil_of_right_ne_nil _ (List.cons_ne_nil _ _)),
        ← List.singleton_append, Text.byteLength_append, Text.byteLength_append,
        byteLength_longName, Nat.succ_mul]
      have one : Text.byteLength ['/'] = 1 := rfl
      omega

/-- A volume with a tower in its only workspace. -/
def towerVolume : Volume where
  root := .directory [(['w'], tower 29)]
  current := []

/-- A path of nine bytes to the workspace. -/
def dottedRoot : Text := ['.', '/', '.', '/', '.', '/', '.', '/', 'w']

/-- A scan of a root that leads to a directory does not always end with a result: here the root
and all names are short, and there are not even files, but the path of the innermost directory is
too long. -/
theorem workspace_fails_in_tower :
    towerVolume.WellFormed ∧ dottedRoot ≠ [] ∧ Path.isAbsolute dottedRoot = false ∧
      Path.isAbsolute Options.standard.scopeFile = false ∧
      towerVolume.find .reach dottedRoot = .ok (tower 29) ∧
      ∃ path, workspace towerVolume dottedRoot .standard = .error (.walk path .nameTooLong) := by
  have wellFormed : towerVolume.WellFormed := .single (by decide) (wellFormed_tower 29)
  have nonempty : dottedRoot ≠ [] := List.cons_ne_nil _ _
  have found : towerVolume.find .reach dottedRoot = .ok (tower 29) := rfl
  have walks : Scope.Walks towerVolume dottedRoot .standard := by
    intro path declaration declared
    obtain ⟨near, -, -, isFile⟩ :=
      Scope.exists_near_of_findDeclaration (Volume.walkStart_of_find found) declared
    obtain ⟨place, bytes, -, stands⟩ := Volume.isFile_eq_true_iff.mp isFile
    cases place with
    | nil => cases stands
    | cons name place => exact (at?_tower_ne_file 29 place bytes (Node.at?_of_single stands)).elim
  have long : (tower 29).Unopenable dottedRoot (List.replicate 29 longName) := by
    refine ⟨⟨[], at?_tower 29⟩, ?_⟩
    rw [byteLength_below_longName (by decide) nonempty]
    decide
  obtain ⟨place, first, -⟩ :=
    (wellFormed.of_find found).exists_first_unopenable dottedRoot ⟨_, long⟩
  have fails : Fails towerVolume dottedRoot .standard _ := .unopenable found walks first
  exact ⟨wellFormed, nonempty, rfl, rfl, found, _, fails.workspace_eq wellFormed nonempty rfl rfl⟩

end Scan

end AssemblyDigest
