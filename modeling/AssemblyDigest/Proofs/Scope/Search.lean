import AssemblyDigest.Proofs.Scope.Declared
import AssemblyDigest.Proofs.Volume.Alike

/-! # Where a declaration is found

The search for a declaration looks in the root of a workspace and then in the directories directly
below it, in the order of their names. A root that leads somewhere has an answer, and the answer is
determined by which of these places have the declaration (`AssemblyDigest.Scope.Locates`,
`AssemblyDigest.Scope.findDeclaration_eq_ok_iff`). The two lookups treat links differently: a
declaration may itself be a link to a file, but a link to a directory is not looked into. Nothing
that lies deeper takes part.
-/

namespace AssemblyDigest

namespace Scope

variable {volume : Volume} {root name : Text} {node : Node}

/-- The path of a declaration in a directory directly below a root. -/
def pathBelow (root name sub : Text) : Text :=
  Path.join (Path.join root sub) name

/-- A directory directly below what a root leads to, with a declaration in it. -/
structure Declares (volume : Volume) (root name : Text) (node : Node) (sub : Text) : Prop where
  /-- The directory itself stands there, not a link to it. -/
  directory : node.kindAt [sub] = some .directory
  /-- The path of the declaration leads to a file. -/
  isFile : volume.isFile (pathBelow root name sub) = true

/-- What the search for a declaration comes to. -/
inductive Locates (volume : Volume) (root name : Text) (node : Node) : Option Text → Prop
  /-- The declaration in the root comes before all others. -/
  | inRoot (isFile : volume.isFile (Path.join root name) = true) :
      Locates volume root name node (some (Path.join root name))
  /-- The declaration is in the first directory that has one. -/
  | below {sub : Text} (absent : volume.isFile (Path.join root name) = false)
      (declares : Declares volume root name node sub)
      (first : ∀ other, Declares volume root name node other → other ≠ sub →
        NameBefore sub other) :
      Locates volume root name node (some (pathBelow root name sub))
  /-- There is no declaration in the root or directly below it. -/
  | nowhere (absent : volume.isFile (Path.join root name) = false)
      (nothing : ∀ sub, ¬ Declares volume root name node sub) :
      Locates volume root name node none

namespace Locates

/-- What the search comes to depends on the directories that have a declaration only. -/
theorem transfer {other : Volume} {otherNode : Node} {result : Option Text}
    (locates : Locates volume root name node result)
    (here : other.isFile (Path.join root name) = volume.isFile (Path.join root name))
    (below : ∀ sub, Declares other root name otherNode sub ↔ Declares volume root name node sub) :
    Locates other root name otherNode result := by
  cases locates with
  | inRoot isFile => exact .inRoot (here.trans isFile)
  | below absent declares first =>
      exact .below (here.trans absent) ((below _).mpr declares) fun sub declared =>
        first sub ((below sub).mp declared)
  | nowhere absent nothing =>
      exact .nowhere (here.trans absent) fun sub => mt (below sub).mp (nothing sub)

/-- The search comes to one thing only. -/
theorem unique {result other : Option Text} (locates : Locates volume root name node result)
    (locatesToo : Locates volume root name node other) : result = other := by
  cases locates with
  | inRoot isFile =>
      cases locatesToo with
      | inRoot _ => rfl
      | below absent _ _ => cases isFile.symm.trans absent
      | nowhere absent _ => cases isFile.symm.trans absent
  | @below sub absent declares first =>
      cases locatesToo with
      | inRoot isFile => cases isFile.symm.trans absent
      | @below subToo _ declaresToo firstToo =>
          have same : sub = subToo := by
            by_contra different
            exact List.lt_asymm (first subToo declaresToo (Ne.symm different))
              (firstToo sub declares different)
          rw [same]
      | nowhere _ nothing => exact (nothing sub declares).elim
  | nowhere absent nothing =>
      cases locatesToo with
      | inRoot isFile => cases isFile.symm.trans absent
      | below _ declares _ => exact (nothing _ declares).elim
      | nowhere _ _ => rfl

end Locates

end Scope

end AssemblyDigest
