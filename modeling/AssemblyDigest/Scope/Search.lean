import AssemblyDigest.Fault
import AssemblyDigest.Options
import AssemblyDigest.Scope.Declaration
import AssemblyDigest.Volume.Content
import AssemblyDigest.Volume.Walk

/-! # The scope of a workspace

A declaration is looked for in the root of a workspace and then in the directories directly
below it, never deeper. The source files are looked for at any depth. With a declaration,
the workspace is walked once for every prefix, so that a file comes up once for each prefix
its path contains; without one, or with one that cannot be read, all source files count.
-/

namespace AssemblyDigest

namespace Scope

/-- The node where the walk of a workspace starts. -/
def start (volume : Volume) (root : Text) : Except Fault Node :=
  (volume.walkStart root).mapError (.walk root)

/-- The path of the declaration of a workspace. -/
def findDeclaration (volume : Volume) (root name : Text) : Except Fault (Option Text) :=
  if volume.isFile (Path.join root name) then .ok (some (Path.join root name))
  else do
    let node ← start volume root
    let candidates := node.subdirectories.map fun sub => Path.join (Path.join root sub) name
    .ok (candidates.find? volume.isFile)

/-- The paths below a root that satisfy a condition, in walk order. -/
def walk (volume : Volume) (root : Text) (wanted : Text → Bool) : Except Fault (List Text) := do
  let node ← start volume root
  let paths ← (node.files root).mapError (.walk · .nameTooLong)
  .ok (paths.filter wanted)

/-- Whether a path has an extension. -/
def hasExtension (extension path : Text) : Bool :=
  extension.isSuffixOf path

/-- The source files below a root. -/
def sources (volume : Volume) (root extension : Text) : Except Fault (List Text) :=
  walk volume root (hasExtension extension)

/-- The source files below a root whose paths contain a prefix, for one prefix after the
other. -/
def sourcesOfPrefixes (volume : Volume) (root extension : Text) :
    List Text → Except Fault (List Text)
  | [] => .ok []
  | part :: parts => do
      let found ←
        walk volume root fun path => hasExtension extension path && Text.contains part path
      let others ← sourcesOfPrefixes volume root extension parts
      .ok (found ++ others)

/-- The source files below a root that a declaration covers. -/
def declaredSources (volume : Volume) (root : Text) (declaration : Declaration)
    (extension : Text) : Except Fault (List Text) :=
  sourcesOfPrefixes volume root extension declaration.prefixes

/-- The source files below a root, under a declaration if there is one. -/
def sourcesUnder (volume : Volume) (root : Text) (declaration : Option Declaration)
    (extension : Text) : Except Fault (List Text) :=
  match declaration with
  | some declaration => declaredSources volume root declaration extension
  | none => sources volume root extension

end Scope

/-- The scope of a workspace. -/
structure Scope where
  /-- Where a declaration was found, whether or not it could be read. -/
  declarationPath : Option Text
  /-- The declaration, if it could be read. -/
  declaration : Option Declaration
  /-- The source files in the order in which they are scanned. -/
  files : List Text
  deriving DecidableEq, Repr

namespace Scope

/-- The declaration in a file, if the file is UTF-8 text. -/
def readDeclaration (volume : Volume) (path : Text) : Option Declaration :=
  match volume.readText path with
  | .ok text => some (Declaration.parse text)
  | .error _ => none

/-- The scope of a workspace. -/
def resolve (volume : Volume) (root : Text) (options : Options) : Except Fault Scope := do
  let declarationPath ← findDeclaration volume root options.scopeFile
  let declaration := declarationPath.bind (readDeclaration volume)
  let files ← sourcesUnder volume root declaration options.extension
  .ok ⟨declarationPath, declaration, files⟩

end Scope

end AssemblyDigest
