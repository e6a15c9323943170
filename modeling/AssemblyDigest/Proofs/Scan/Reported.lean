import AssemblyDigest.Proofs.Scan.Unread
import AssemblyDigest.Proofs.Scan.Workspace
import AssemblyDigest.Proofs.Volume.LinkFree

/-! # What a scan sees of a report

A report is written directly into the directory that is scanned. There it is one more file, or
one with other bytes, and nothing else differs (`AssemblyDigest.Scan.Reported`). A scan comes
across it only if its path has the extension of source files or its name is that of scope
declarations; otherwise the same files are found in the same order and read with the same
contents, and the scan ends as before (`AssemblyDigest.Scan.Reported.workspace_eq`).
-/

namespace AssemblyDigest

namespace Node.Rewritten

variable {before after : Node} {place : Place} {bytes : Bytes}

/-- A new file adds no directory. -/
theorem subdirectories_eq (rewritten : Rewritten before after place bytes)
    (wellFormed : before.WellFormed) (afterWellFormed : after.WellFormed) :
    after.subdirectories = before.subdirectories := by
  apply List.Pairwise.eq_of_mem_iff afterWellFormed.pairwise_subdirectories
    wellFormed.pairwise_subdirectories
  intro name
  rw [afterWellFormed.mem_subdirectories, wellFormed.mem_subdirectories,
    rewritten.kindAt_iff (by decide)]

/-- A new file makes no directory unopenable, and none openable. -/
theorem unopenable_iff (rewritten : Rewritten before after place bytes) (path : Text)
    (other : Place) : after.Unopenable path other ↔ before.Unopenable path other := by
  rw [Unopenable, Unopenable, ← kindAt_eq_directory_iff, ← kindAt_eq_directory_iff,
    rewritten.kindAt_iff (by decide)]

/-- The same source files are listed if the file that was written is not one. -/
theorem sourceListing_eq (rewritten : Rewritten before after place bytes) {root extension : Text}
    (noSource : ¬ extension <:+ Path.below root place) {paths others : List Text}
    (listing : Scope.SourceListing before root extension paths)
    (afterListing : Scope.SourceListing after root extension others) : others = paths := by
  have irreflexive : Std.Irrefl fun first second : Text =>
      Place.Before (Path.names first) (Path.names second) := ⟨fun _ => Place.before_irrefl _⟩
  have antisymmetric : Std.Antisymm fun first second : Text =>
      Place.Before (Path.names first) (Path.names second) :=
    ⟨fun _ _ before after => (List.lt_asymm before after).elim⟩
  have same : ∀ path other content, Path.below root other = path → extension <:+ path →
      (after.at? other = some (.file content) ↔ before.at? other = some (.file content)) := by
    rintro path other content rfl suffix
    apply rewritten.at?_file_iff
    rintro rfl
    exact noSource suffix
  apply List.Pairwise.eq_of_mem_iff afterListing.increasing listing.increasing
  intro path
  rw [afterListing.mem_iff, listing.mem_iff]
  constructor
  · rintro ⟨other, content, stands, named, suffix⟩
    exact ⟨other, content, (same path other content named suffix).mp stands, named, suffix⟩
  · rintro ⟨other, content, stands, named, suffix⟩
    exact ⟨other, content, (same path other content named suffix).mpr stands, named, suffix⟩

end Node.Rewritten

namespace Scope

variable {first second : Volume} {root : Text}

/-- What lies under a declaration depends on the source files only. -/
theorem sourcesUnder_congr {extension : Text} {found : List Text}
    (listed : sources first root extension = .ok found)
    (listedToo : sources second root extension = .ok found) (declaration : Option Declaration) :
    sourcesUnder second root declaration extension =
      sourcesUnder first root declaration extension := by
  cases declaration with
  | none => exact listedToo.trans listed.symm
  | some declaration =>
      rw [sourcesUnder, sourcesUnder, declaredSources, declaredSources,
        sourcesOfPrefixes_of_ok listed, sourcesOfPrefixes_of_ok listedToo]

end Scope

namespace Scan

/-- Where a scan finds files, the path of a place leads to that place. -/
theorem resolve_pathOf {volume : Volume} {place : Place} {options : Options} {scope : Scope}
    (linkFree : volume.LinkFree) (proper : ProperPlace place)
    (resolved : Scope.resolve volume (Volume.pathOf place) options = .ok scope)
    (present : scope.files ≠ []) : volume.resolve .reach (Volume.pathOf place) = .ok place := by
  obtain ⟨path, member⟩ := List.exists_mem_of_ne_nil _ present
  obtain ⟨found, listed, -⟩ := (Scope.arises_of_resolve resolved).mem_sources member
  obtain ⟨start, walked, started, -⟩ := Scope.exists_of_sources listed
  rcases Volume.find_of_walkStart started with ⟨target, rfl, looked⟩ | reached
  · obtain ⟨other, -, stands⟩ := Volume.find_eq_ok_iff.mp looked
    exact (linkFree other target stands).elim
  · obtain ⟨other, leads, -⟩ := Volume.find_eq_ok_iff.mp reached
    rw [linkFree.eq_of_resolve_pathOf proper leads] at leads
    exact leads

/-- A file was written into the directory that a canonical path leads to, in a volume without
links. -/
structure Reported (before after : Volume) (place : Place) (name : Text) (bytes : Bytes) :
    Prop where
  wellFormed : before.WellFormed
  afterWellFormed : after.WellFormed
  linkFree : before.LinkFree
  reached : before.resolve .reach (Volume.pathOf place) = .ok place
  rewritten : before.Rewritten after (place ++ [name]) bytes

/-- Options under which the file of a name directly below a root is neither a source file nor a
declaration. The name of declarations is a single element. -/
structure Overlooks (options : Options) (root name : Text) : Prop where
  noSource : ¬ options.extension <:+ Path.join root name
  nonempty : options.scopeFile ≠ []
  noSeparator : '/' ∉ options.scopeFile
  different : options.scopeFile ≠ name

namespace Reported

variable {before after : Volume} {place : Place} {name : Text} {bytes : Bytes}
  (reported : Reported before after place name bytes)

include reported

theorem proper : ProperPlace place :=
  reported.wellFormed.of_resolve reported.reached

theorem afterLinkFree : after.LinkFree :=
  reported.rewritten.root.linkFree reported.linkFree

/-- Both volumes have a directory there, which differ in the one file. -/
theorem exists_directories : ∃ entries others,
    before.find .reach (Volume.pathOf place) = .ok (.directory entries) ∧
      after.find .reach (Volume.pathOf place) = .ok (.directory others) ∧
      (Node.directory entries).Rewritten (.directory others) [name] bytes := by
  obtain ⟨others, later⟩ :=
    Node.exists_directory_of_at? (List.cons_ne_nil _ _) reported.rewritten.root.written
  obtain ⟨entries, earlier⟩ :=
    (reported.rewritten.exists_directory_iff place).mp ⟨others, later⟩
  exact ⟨entries, others, Volume.find_eq_ok_iff.mpr ⟨place, reported.reached, earlier⟩,
    Volume.find_eq_ok_iff.mpr
      ⟨place, reported.rewritten.resolve_of_before reported.reached, later⟩,
    reported.rewritten.root.below earlier later⟩

variable {options : Options} (overlooks : Overlooks options (Volume.pathOf place) name)

include overlooks

/-- The enumeration of source files does not see the report. -/
theorem sources_eq {found : List Text}
    (listed : Scope.sources before (Volume.pathOf place) options.extension = .ok found) :
    Scope.sources after (Volume.pathOf place) options.extension = .ok found := by
  obtain ⟨entries, others, reached, reachedAfter, rewritten⟩ := reported.exists_directories
  have started := Volume.walkStart_of_find reached
  have startedAfter := Volume.walkStart_of_find reachedAfter
  have wellFormed := reported.wellFormed.of_find reached
  have afterWellFormed := reported.afterWellFormed.of_find reachedAfter
  obtain ⟨start, walked, startedToo, files, rfl⟩ := Scope.exists_of_sources listed
  cases started.symm.trans startedToo
  have openable := (wellFormed.openable_iff (Volume.pathOf place)).mpr ⟨walked, files⟩
  obtain ⟨walkedAfter, filesAfter⟩ := (afterWellFormed.openable_iff (Volume.pathOf place)).mp
    fun other long => openable other ((rewritten.unopenable_iff _ other).mp long)
  rw [Scope.sources, Scope.walk_eq_ok startedAfter filesAfter]
  exact congrArg _ (rewritten.sourceListing_eq overlooks.noSource
    (Scope.sourceListing_of_files wellFormed files)
    (Scope.sourceListing_of_files afterWellFormed filesAfter))

/-- Source files are read as before, since the new file is none of them. -/
theorem read_eq_of_mem_sources {found : List Text}
    (listed : Scope.sources before (Volume.pathOf place) options.extension = .ok found)
    {path : Text} (member : path ∈ found) : after.read path = before.read path := by
  obtain ⟨entries, others, reached, reachedAfter, rewritten⟩ := reported.exists_directories
  obtain ⟨start, startedToo, listing⟩ :=
    Scope.sourceListing_of_sources reported.wellFormed listed
  cases (Volume.walkStart_of_find reached).symm.trans startedToo
  obtain ⟨other, content, stands, rfl, suffix⟩ := (listing.mem_iff path).mp member
  obtain ⟨target, resolved, earlier⟩ := Volume.find_eq_ok_iff.mp reached
  cases resolved.symm.trans reported.reached
  have proper := ((reported.wellFormed.of_find reached).at? stands).2
  have apart : place ++ other ≠ place ++ [name] := by
    intro same
    cases List.append_cancel_left same
    exact overlooks.noSource suffix
  by_cases long : Volume.pathLimit ≤
      (Path.below (Volume.pathOf place) other).byteLength
  · have noNul : '\x00' ∉ Path.below (Volume.pathOf place) other :=
      Path.nul_not_mem_below (Volume.resolve_eq_ok_iff.mp reported.reached).1 proper
    rw [Volume.read_of_long noNul long, Volume.read_of_long noNul long]
  · exact reported.rewritten.read_eq (Volume.resolve_below reported.reached earlier proper stands
      (by simp) (Nat.not_le.mp long)) apart

section Near

variable {start : Node} (started : before.walkStart (Volume.pathOf place) = .ok start)
  {near : Place} (isNear : Scope.Near start near)

include started isNear

/-- No declaration is looked for in the new file. -/
theorem ne_written_of_near {volume : Volume} (linkFree : volume.LinkFree) {target : Place}
    {content : Bytes}
    (resolved : volume.resolve .reach
      (Path.join (Path.below (Volume.pathOf place) near) options.scopeFile) = .ok target)
    (stands : volume.at? target = some (.file content)) : target ≠ place ++ [name] := by
  have proper : ProperPlace near := by
    rcases isNear with rfl | ⟨sub, present, rfl⟩
    · exact .nil
    · have wellFormed := reported.wellFormed.of_walkStart started
      obtain ⟨entries, directory⟩ :=
        Node.kindAt_eq_directory_iff.mp ((wellFormed.mem_subdirectories sub).mp present)
      exact (wellFormed.at? directory).2
  rw [linkFree.eq_of_resolve_file reported.proper proper overlooks.nonempty
    overlooks.noSeparator resolved stands, List.append_assoc]
  intro same
  have same := List.append_cancel_left same
  rcases isNear with rfl | ⟨sub, present, rfl⟩
  · exact overlooks.different (List.singleton_inj.mp same)
  · cases same

/-- Where a declaration is looked for, there is a file exactly if there was one before. -/
theorem isFile_eq_of_near :
    after.isFile (Path.join (Path.below (Volume.pathOf place) near) options.scopeFile) =
      before.isFile (Path.join (Path.below (Volume.pathOf place) near) options.scopeFile) := by
  rw [Bool.eq_iff_iff, Volume.isFile_eq_true_iff, Volume.isFile_eq_true_iff]
  constructor
  · rintro ⟨target, content, resolved, stands⟩
    have apart :=
      reported.ne_written_of_near overlooks started isNear reported.afterLinkFree resolved stands
    exact ⟨target, content, reported.rewritten.resolve_of_after resolved apart,
      (reported.rewritten.at?_file_iff apart content).mp stands⟩
  · rintro ⟨target, content, resolved, stands⟩
    have apart :=
      reported.ne_written_of_near overlooks started isNear reported.linkFree resolved stands
    exact ⟨target, content, reported.rewritten.resolve_of_before resolved,
      (reported.rewritten.at?_file_iff apart content).mpr stands⟩

/-- Where a declaration is found, the same one is read as before. -/
theorem readDeclaration_eq_of_near
    (isFile : before.isFile
      (Path.join (Path.below (Volume.pathOf place) near) options.scopeFile) = true) :
    Scope.readDeclaration after
        (Path.join (Path.below (Volume.pathOf place) near) options.scopeFile) =
      Scope.readDeclaration before
        (Path.join (Path.below (Volume.pathOf place) near) options.scopeFile) := by
  obtain ⟨target, content, resolved, stands⟩ := Volume.isFile_eq_true_iff.mp isFile
  have apart :=
    reported.ne_written_of_near overlooks started isNear reported.linkFree resolved stands
  unfold Scope.readDeclaration Volume.readText
  rw [reported.rewritten.read_eq resolved apart]

end Near

/-- The same declaration is found and read, and the same source files are in the scope. -/
theorem resolve_eq {found : List Text}
    (listed : Scope.sources before (Volume.pathOf place) options.extension = .ok found) :
    Scope.resolve after (Volume.pathOf place) options =
      Scope.resolve before (Volume.pathOf place) options := by
  obtain ⟨entries, others, reached, reachedAfter, rewritten⟩ := reported.exists_directories
  have started := Volume.walkStart_of_find reached
  have searched : Scope.findDeclaration after (Volume.pathOf place) options.scopeFile =
      Scope.findDeclaration before (Volume.pathOf place) options.scopeFile := by
    apply Scope.findDeclaration_congr started (Volume.walkStart_of_find reachedAfter)
    · exact rewritten.subdirectories_eq (reported.wellFormed.of_find reached)
        (reported.afterWellFormed.of_find reachedAfter)
    · intro near isNear
      exact reported.isFile_eq_of_near overlooks started isNear
  unfold Scope.resolve
  rw [searched]
  cases declared : Scope.findDeclaration before (Volume.pathOf place) options.scopeFile with
  | error fault => rfl
  | ok declarationPath =>
      have read : declarationPath.bind (Scope.readDeclaration after) =
          declarationPath.bind (Scope.readDeclaration before) := by
        cases declarationPath with
        | none => rfl
        | some path =>
            obtain ⟨near, isNear, rfl, isFile⟩ :=
              Scope.exists_near_of_findDeclaration started declared
            exact reported.readDeclaration_eq_of_near overlooks started isNear isFile
      simp only [read, bind, Except.bind,
        Scope.sourcesUnder_congr listed (reported.sources_eq overlooks listed)]

/-- **A report is not scanned.** If a scan that found files overlooks the new one, it ends as it
did before. -/
theorem workspace_eq {scope : Scope}
    (resolved : Scope.resolve before (Volume.pathOf place) options = .ok scope)
    (present : scope.files ≠ []) :
    workspace after (Volume.pathOf place) options =
      workspace before (Volume.pathOf place) options := by
  obtain ⟨path, member⟩ := List.exists_mem_of_ne_nil _ present
  obtain ⟨found, listed, -⟩ := (Scope.arises_of_resolve resolved).mem_sources member
  have resolvedAfter := (reported.resolve_eq overlooks listed).trans resolved
  have read : ∀ path ∈ scope.files, after.read path = before.read path := by
    intro path member
    obtain ⟨others, listedToo, member⟩ := (Scope.arises_of_resolve resolved).mem_sources member
    exact reported.read_eq_of_mem_sources overlooks listedToo member
  rw [Scan.workspace_eq resolvedAfter present, Scan.workspace_eq resolved present,
    files_congr read]

end Reported

end Scan

end AssemblyDigest
