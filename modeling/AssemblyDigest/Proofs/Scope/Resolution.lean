import AssemblyDigest.Proofs.Scope.Declared
import AssemblyDigest.Proofs.Text.Trim
import AssemblyDigest.Proofs.Utf8.Decode
import Mathlib.Data.List.TakeWhile

/-! # How a scope comes about

A scope is resolved in one of three ways (`AssemblyDigest.Scope.Arises`). No declaration is found,
or the one that is found cannot be read or is not UTF-8: then all source files are in the scope, and
in the second case the path of the useless declaration is kept. Or the declaration is text, and the
source files under it are in the scope, which are none if all its lines are blank. Whichever it is,
only source files are in the scope (`AssemblyDigest.Scope.resolved_of_resolve`). That the bytes of a
declaration are a text is not enough for it to be used
(`AssemblyDigest.Scope.unused_of_lockedVolume`).
-/

namespace AssemblyDigest

/-- A declaration whose lines are all blank lists no prefixes. -/
theorem Declaration.prefixes_parse_of_blank {text : Text}
    (blank : ∀ line ∈ Text.lines text, ∀ char ∈ line, Text.isBlank char = true) :
    (parse text).prefixes = [] := by
  apply List.filter_eq_nil_iff.mpr
  intro trimmed member
  obtain ⟨line, within, rfl⟩ := List.mem_map.mp member
  rw [Text.trim_of_blank (blank line within)]
  decide

namespace Scope

variable {volume : Volume} {root extension path : Text} {options : Options} {scope : Scope}

/-- A declaration is found only where a file is. -/
theorem isFile_of_findDeclaration {name : Text}
    (found : findDeclaration volume root name = .ok (some path)) : volume.isFile path = true := by
  rw [findDeclaration] at found
  split at found
  · next isFile =>
      cases found
      exact isFile
  · obtain ⟨start, -, searched⟩ := Volume.exists_of_bind_eq_ok found
    exact List.find?_some (Except.ok.inj searched)

/-- A file with a text holds the declaration in that text. -/
theorem readDeclaration_of_text {text : Text}
    (read : volume.read path = .ok (Utf8.encode text)) :
    readDeclaration volume path = some (.parse text) := by
  have decoded : Utf8.decode? (Utf8.encode text) = some text := Utf8.decode?_eq_some_iff.mpr rfl
  simp only [readDeclaration, Volume.readText, read, decoded, bind, Except.bind]

/-- A file that cannot be read, or holds no text, holds no declaration. -/
theorem readDeclaration_of_useless (useless : ∀ text, volume.read path ≠ .ok (Utf8.encode text)) :
    readDeclaration volume path = none := by
  cases read : volume.read path with
  | error cause => simp only [readDeclaration, Volume.readText, read, bind, Except.bind]
  | ok bytes =>
      have gap : Utf8.decode? bytes = none := by
        apply Option.eq_none_iff_forall_ne_some.mpr
        intro text decoded
        rw [Utf8.decode?_eq_some_iff.mp decoded] at read
        exact useless text read
      simp only [readDeclaration, Volume.readText, read, gap, bind, Except.bind]

/-- What holds no text cannot be read, or its bytes are not those of any text. -/
theorem unread_iff : (∀ text, volume.read path ≠ .ok (Utf8.encode text)) ↔
    (∃ cause, volume.read path = .error cause) ∨
      ∃ bytes, volume.read path = .ok bytes ∧ ∀ text, bytes ≠ Utf8.encode text := by
  cases volume.read path with
  | error cause => simp
  | ok bytes => simp

/-- The ways in which a scope comes about. -/
inductive Arises (volume : Volume) (root : Text) (options : Options) : Scope → Prop
  /-- There is no declaration. -/
  | undeclared {files : List Text}
      (absent : findDeclaration volume root options.scopeFile = .ok none)
      (listed : sources volume root options.extension = .ok files) :
      Arises volume root options ⟨none, none, files⟩
  /-- The declaration cannot be read, or its bytes are not those of any text. -/
  | useless {path : Text} {files : List Text}
      (found : findDeclaration volume root options.scopeFile = .ok (some path))
      (unread : ∀ text, volume.read path ≠ .ok (Utf8.encode text))
      (listed : sources volume root options.extension = .ok files) :
      Arises volume root options ⟨some path, none, files⟩
  /-- The declaration is a text. -/
  | declared {path text : Text} {files : List Text}
      (found : findDeclaration volume root options.scopeFile = .ok (some path))
      (read : volume.read path = .ok (Utf8.encode text))
      (listed : declaredSources volume root (.parse text) options.extension = .ok files) :
      Arises volume root options ⟨some path, some (.parse text), files⟩

/-- Every scope comes about in one of the ways. -/
theorem arises_of_resolve (resolved : resolve volume root options = .ok scope) :
    Arises volume root options scope := by
  obtain ⟨declarationPath, located, resolved⟩ := Volume.exists_of_bind_eq_ok resolved
  obtain ⟨files, listed, resolved⟩ := Volume.exists_of_bind_eq_ok resolved
  cases resolved
  cases declarationPath with
  | none => exact .undeclared located listed
  | some path =>
      rw [Option.bind_some] at listed ⊢
      by_cases isText : ∃ text, volume.read path = .ok (Utf8.encode text)
      · obtain ⟨text, read⟩ := isText
        rw [readDeclaration_of_text read] at listed ⊢
        exact .declared located read listed
      · have unread := not_exists.mp isText
        rw [readDeclaration_of_useless unread] at listed ⊢
        exact .useless located unread listed

namespace Arises

/-- The search decides where the declaration is. -/
theorem located (arises : Arises volume root options scope) :
    findDeclaration volume root options.scopeFile = .ok scope.declarationPath := by
  cases arises with
  | undeclared absent listed => exact absent
  | useless found unread listed => exact found
  | declared found read listed => exact found

/-- The path that was found leads to a file, which is read unless something is in the way. -/
theorem exists_file (arises : Arises volume root options scope)
    (located : scope.declarationPath = some path) :
    ∃ place bytes, volume.resolve .reach path = .ok place ∧
      volume.at? place = some (.file bytes) ∧
      volume.read path = (volume.obstacle? place).elim (.ok bytes) .error := by
  have found := arises.located
  rw [located] at found
  obtain ⟨place, bytes, resolved, stands⟩ :=
    Volume.isFile_eq_true_iff.mp (isFile_of_findDeclaration found)
  exact ⟨place, bytes, resolved, stands, Volume.read_of_file resolved stands⟩

/-- There is a declaration exactly if what was found is a text that can be read. -/
theorem declaration_eq_some_iff (arises : Arises volume root options scope)
    (declaration : Declaration) : scope.declaration = some declaration ↔
      ∃ path text, scope.declarationPath = some path ∧
        volume.read path = .ok (Utf8.encode text) ∧ declaration = .parse text := by
  cases arises with
  | undeclared absent listed => simp
  | @useless path files found unread listed =>
      constructor
      · intro same
        cases same
      · intro decodable
        obtain ⟨other, text, same, read, -⟩ := decodable
        cases same
        exact (unread text read).elim
  | @declared path text files found read listed =>
      constructor
      · intro same
        cases same
        exact ⟨path, text, rfl, read, rfl⟩
      · intro decodable
        obtain ⟨other, textToo, same, readToo, rfl⟩ := decodable
        cases same
        rw [Utf8.encode_injective (Except.ok.inj (read.symm.trans readToo))]

/-- There is none exactly if nothing was found, or nothing that can be read as a text. -/
theorem declaration_eq_none_iff (arises : Arises volume root options scope) :
    scope.declaration = none ↔ scope.declarationPath = none ∨
      ∃ path, scope.declarationPath = some path ∧
        ∀ text, volume.read path ≠ .ok (Utf8.encode text) := by
  cases arises with
  | undeclared absent listed => simp
  | @useless path files found unread listed =>
      exact iff_of_true rfl (Or.inr ⟨path, rfl, unread⟩)
  | @declared path text files found read listed =>
      refine iff_of_false (Option.some_ne_none _) ?_
      intro useless
      rcases useless with absent | ⟨other, same, unread⟩
      · cases absent
      · cases same
        exact unread text read

/-- Without a declaration, all source files are in the scope. -/
theorem sources_of_undeclared (arises : Arises volume root options scope)
    (undeclared : scope.declaration = none) :
    sources volume root options.extension = .ok scope.files := by
  cases arises with
  | undeclared absent listed => exact listed
  | useless found unread listed => exact listed
  | declared found read listed => cases undeclared

/-- With a declaration, the source files under it are in the scope. -/
theorem declaredSources_of_declared (arises : Arises volume root options scope)
    {declaration : Declaration} (declared : scope.declaration = some declaration) :
    declaredSources volume root declaration options.extension = .ok scope.files := by
  cases arises with
  | undeclared absent listed => cases declared
  | useless found unread listed => cases declared
  | declared found read listed =>
      cases declared
      exact listed

/-- A declaration of blank lines leaves no files. -/
theorem files_of_blank (arises : Arises volume root options scope) {text : Text}
    (located : scope.declarationPath = some path)
    (read : volume.read path = .ok (Utf8.encode text))
    (blank : ∀ line ∈ Text.lines text, ∀ char ∈ line, Text.isBlank char = true) :
    scope.files = [] := by
  have declared := (arises.declaration_eq_some_iff _).mpr ⟨path, text, located, read, rfl⟩
  have listed := arises.declaredSources_of_declared declared
  rw [declaredSources, Declaration.prefixes_parse_of_blank blank, sourcesOfPrefixes] at listed
  exact (Except.ok.inj listed).symm

/-- Only source files are in the scope. -/
theorem mem_sources (arises : Arises volume root options scope) (member : path ∈ scope.files) :
    ∃ found, sources volume root options.extension = .ok found ∧ path ∈ found := by
  cases declared : scope.declaration with
  | none => exact ⟨_, arises.sources_of_undeclared declared, member⟩
  | some declaration =>
      exact mem_sources_of_declaredSources (arises.declaredSources_of_declared declared) member

end Arises

/-- Each path that comes up under a declaration contains one of its prefixes. -/
theorem exists_part_of_mem_declaredSources {declaration : Declaration} {listed : List Text}
    (declared : declaredSources volume root declaration extension = .ok listed)
    (member : path ∈ listed) : ∃ part ∈ declaration.prefixes, part <:+: path := by
  obtain ⟨found, enumerated, -⟩ := mem_sources_of_declaredSources declared member
  rw [declaredSources, sourcesOfPrefixes_of_ok enumerated] at declared
  cases declared
  exact ((mem_selected _ found path).mp member).2

/-- What a scope promises about its declaration and its files. -/
structure Resolved (volume : Volume) (root : Text) (options : Options) (scope : Scope) :
    Prop where
  /-- The search decides where the declaration is. -/
  located : findDeclaration volume root options.scopeFile = .ok scope.declarationPath
  /-- What was found is a file, which is read unless something keeps it from being read. -/
  exists_file : ∀ path, scope.declarationPath = some path → ∃ place bytes,
    volume.resolve .reach path = .ok place ∧ volume.at? place = some (.file bytes) ∧
      volume.read path = (volume.obstacle? place).elim (.ok bytes) .error
  /-- There is a declaration exactly if the file that was found can be read and holds a text, and
  then it is the one in that text. -/
  declaration_eq_some_iff : ∀ declaration, scope.declaration = some declaration ↔
    ∃ path text, scope.declarationPath = some path ∧
      volume.read path = .ok (Utf8.encode text) ∧ declaration = .parse text
  /-- There is none exactly if no file was found, or one that cannot be read or does not hold a
  text. -/
  declaration_eq_none_iff : scope.declaration = none ↔ scope.declarationPath = none ∨
    ∃ path, scope.declarationPath = some path ∧
      ((∃ cause, volume.read path = .error cause) ∨
        ∃ bytes, volume.read path = .ok bytes ∧ ∀ text, bytes ≠ Utf8.encode text)
  /-- Without a declaration, the files are all source files. -/
  undeclared : scope.declaration = none →
    sources volume root options.extension = .ok scope.files
  /-- With a declaration, the files are those under it, each of which contains a prefix. -/
  declared : ∀ declaration, scope.declaration = some declaration →
    declaredSources volume root declaration options.extension = .ok scope.files ∧
      ∀ path ∈ scope.files, ∃ part ∈ declaration.prefixes, part <:+: path
  /-- A declaration of blank lines leaves no files, whatever source files there are. -/
  blank : ∀ path text, scope.declarationPath = some path →
    volume.read path = .ok (Utf8.encode text) →
    (∀ line ∈ Text.lines text, ∀ char ∈ line, Text.isBlank char = true) → scope.files = []
  /-- The files are source files. -/
  mem_sources : ∀ path ∈ scope.files, ∃ found,
    sources volume root options.extension = .ok found ∧ path ∈ found

/-- **A scope keeps its promises** whenever it can be resolved. -/
theorem resolved_of_resolve (resolved : resolve volume root options = .ok scope) :
    Resolved volume root options scope := by
  have arises := arises_of_resolve resolved
  refine ⟨arises.located, fun path => arises.exists_file, arises.declaration_eq_some_iff, ?_,
    arises.sources_of_undeclared, ?_, ?_, fun path => arises.mem_sources⟩
  · simp only [arises.declaration_eq_none_iff, unread_iff]
  · intro declaration declared
    have listed := arises.declaredSources_of_declared declared
    exact ⟨listed, fun path => exists_part_of_mem_declaredSources listed⟩
  · intro path text located read blank
    exact arises.files_of_blank located read blank

/-- A workspace with a link to a declaration of blank lines. -/
def blankVolume : Volume where
  root := .directory [(['w'], .directory
    [(Options.standard.scopeFile, .link ['d', '/', 'x']),
      (['d'], .directory [(['x'], .file (Utf8.encode [' ', '\n', '\t']))]),
      (['A', '.', 's', 'o', 'l'], .file [])])]
  current := []

/-- A declaration of blank lines behind a link leaves a scope without files. -/
theorem resolved_of_blankVolume :
    sources blankVolume ['w'] Options.standard.extension =
        .ok [['w', '/', 'A', '.', 's', 'o', 'l']] ∧
      resolve blankVolume ['w'] .standard =
        .ok ⟨some (Path.join ['w'] Options.standard.scopeFile), some ⟨[]⟩, []⟩ ∧
      Resolved blankVolume ['w'] .standard
        ⟨some (Path.join ['w'] Options.standard.scopeFile), some ⟨[]⟩, []⟩ := by
  have resolved : resolve blankVolume ['w'] .standard =
      .ok ⟨some (Path.join ['w'] Options.standard.scopeFile), some ⟨[]⟩, []⟩ := rfl
  exact ⟨rfl, resolved, resolved_of_resolve resolved⟩

/-- A workspace whose declaration covers one of its two source files, but may not be read. -/
def lockedVolume : Volume where
  root := .directory [(['w'], .directory
    [(Options.standard.scopeFile, .file (Utf8.encode ['s', 'r', 'c'])),
      (['s', 'r', 'c'], .directory [(['A', '.', 's', 'o', 'l'], .file [])]),
      (['l', 'i', 'b'], .directory [(['B', '.', 's', 'o', 'l'], .file [])])])]
  current := []
  obstacles := [([['w'], Options.standard.scopeFile], .permissionDenied)]

/-- A declaration that is found and whose bytes are a text need not be used: here it may not be
read, so that all source files are in the scope and not only those under it. -/
theorem unused_of_lockedVolume :
    lockedVolume.WellFormed ∧ ∃ path place text scope listed,
      findDeclaration lockedVolume ['w'] Options.standard.scopeFile = .ok (some path) ∧
      lockedVolume.resolve .reach path = .ok place ∧
      lockedVolume.at? place = some (.file (Utf8.encode text)) ∧
      resolve lockedVolume ['w'] .standard = .ok scope ∧
      scope.declarationPath = some path ∧ scope.declaration = none ∧
      sources lockedVolume ['w'] Options.standard.extension = .ok scope.files ∧
      declaredSources lockedVolume ['w'] (.parse text) Options.standard.extension = .ok listed ∧
      listed ≠ scope.files := by
  have wellFormed : lockedVolume.WellFormed := by decide
  have found : findDeclaration lockedVolume ['w'] Options.standard.scopeFile =
      .ok (some (Path.join ['w'] Options.standard.scopeFile)) := rfl
  have resolved : resolve lockedVolume ['w'] .standard =
      .ok ⟨some (Path.join ['w'] Options.standard.scopeFile), none,
        [['w', '/', 'l', 'i', 'b', '/', 'B', '.', 's', 'o', 'l'],
          ['w', '/', 's', 'r', 'c', '/', 'A', '.', 's', 'o', 'l']]⟩ := rfl
  have under : declaredSources lockedVolume ['w'] (.parse ['s', 'r', 'c'])
      Options.standard.extension =
        .ok [['w', '/', 's', 'r', 'c', '/', 'A', '.', 's', 'o', 'l']] := rfl
  exact ⟨wellFormed, _, _, ['s', 'r', 'c'], _, _, found, rfl, rfl, resolved, rfl, rfl, rfl, under,
    by decide⟩

end Scope

end AssemblyDigest
