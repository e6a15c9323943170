import AssemblyDigest.Proofs.Volume.WellFormed

/-! # Ways through a volume

A *way* records how the elements of a path are followed one by one. Following a path
succeeds exactly if there is a way (`AssemblyDigest.Volume.follow_eq_ok_iff`), so that facts
about following are proved by induction on ways: a way can be extended by one through the
place it leads to, a way that looks at what a path names is continued by one that reaches
it, and the names of a place below a directory are a way.
-/

namespace AssemblyDigest

namespace Volume

/-- Whether an element is looked up as a name where it stands. -/
structure Passable (purpose : Purpose) (here : Place) (name : Text) (rest : List Text) :
    Prop where
  nonempty : name ≠ []
  notHere : name ≠ ['.']
  notParent : name ≠ ['.', '.']
  noDirectory : ¬ (purpose = .create ∧ rest = [[]])
  short : exceedsLimit purpose here name = false

/-- How elements are followed from a place, through at most a number of links. -/
inductive Way (volume : Volume) (purpose : Purpose) : Nat → List Text → Place → Place → Prop
  /-- No element is left. -/
  | done (links : Nat) (here : Place) : Way volume purpose links [] here here
  /-- An empty element or `.` stays in the directory. -/
  | stay {links : Nat} {name : Text} {rest : List Text} {here place : Place}
      {entries : List (Text × Node)} (directory : volume.at? here = some (.directory entries))
      (dot : name = [] ∨ name = ['.']) (way : Way volume purpose links rest here place) :
      Way volume purpose links (name :: rest) here place
  /-- The element `..` leads to the parent. -/
  | parent {links : Nat} {rest : List Text} {here place : Place}
      {entries : List (Text × Node)} (directory : volume.at? here = some (.directory entries))
      (way : Way volume purpose links rest here.dropLast place) :
      Way volume purpose links (['.', '.'] :: rest) here place
  /-- A name leads to a file or directory. -/
  | enter {links : Nat} {name : Text} {rest : List Text} {here place : Place}
      {entries : List (Text × Node)} {node : Node}
      (directory : volume.at? here = some (.directory entries))
      (passable : Passable purpose here name rest) (found : entries.lookup name = some node)
      (plain : ∀ target, node ≠ .link target)
      (way : Way volume purpose links rest (here ++ [name]) place) :
      Way volume purpose links (name :: rest) here place
  /-- A name leads to a link, which is followed. -/
  | jump {links : Nat} {name target : Text} {rest : List Text} {here place : Place}
      {entries : List (Text × Node)} (directory : volume.at? here = some (.directory entries))
      (passable : Passable purpose here name rest)
      (found : entries.lookup name = some (.link target))
      (through : ¬ (purpose = .inspect ∧ rest = []))
      (way : Way volume purpose links (Path.elements target ++ rest)
        (if Path.isAbsolute target then [] else here) place) :
      Way volume purpose (links + 1) (name :: rest) here place
  /-- The last name leads to a link, which is what is looked at. -/
  | link {links : Nat} {name target : Text} {here : Place} {entries : List (Text × Node)}
      (directory : volume.at? here = some (.directory entries))
      (passable : Passable purpose here name [])
      (found : entries.lookup name = some (.link target)) (inspecting : purpose = .inspect) :
      Way volume purpose links [name] here (here ++ [name])
  /-- The last name is missing, and is to be created. -/
  | missing {links : Nat} {name : Text} {here : Place} {entries : List (Text × Node)}
      (directory : volume.at? here = some (.directory entries))
      (passable : Passable purpose here name []) (absent : entries.lookup name = none)
      (creating : purpose = .create) : Way volume purpose links [name] here (here ++ [name])

/-- A way with elements starts at a directory. -/
theorem Way.exists_directory {volume : Volume} {purpose : Purpose} {links : Nat} {element : Text}
    {rest : List Text} {here place : Place}
    (way : Way volume purpose links (element :: rest) here place) :
    ∃ entries, volume.at? here = some (.directory entries) := by
  cases way with
  | stay directory _ _ => exact ⟨_, directory⟩
  | parent directory _ => exact ⟨_, directory⟩
  | enter directory _ _ _ _ => exact ⟨_, directory⟩
  | jump directory _ _ _ _ => exact ⟨_, directory⟩
  | link directory _ _ _ => exact ⟨_, directory⟩
  | missing directory _ _ _ => exact ⟨_, directory⟩

/-- Elements that are followed successfully are a way, if the followed links are. -/
theorem way_of_advance {volume : Volume} {purpose : Purpose} {links : Nat}
    {jump : List Text → Place → Except AccessFault Place}
    (jumps : ∀ elements here place, jump elements here = .ok place →
      ∃ fewer, links = fewer + 1 ∧ Way volume purpose fewer elements here place)
    {elements : List Text} {here place : Place}
    (followed : volume.advance purpose jump elements here = .ok place) :
    Way volume purpose links elements here place := by
  induction elements generalizing here with
  | nil =>
      cases followed
      exact .done links _
  | cons name rest ih =>
      rw [advance] at followed
      split at followed
      case h_2 => cases followed
      next entries directory =>
      split at followed
      · next dot => exact .stay directory dot (ih followed)
      · next notDot =>
        split at followed
        · next dots =>
            subst dots
            exact .parent directory (ih followed)
        · next notParent =>
          split at followed
          · cases followed
          · next noDirectory =>
            split at followed
            · cases followed
            · next short =>
              have passable : Passable purpose here name rest :=
                ⟨fun empty => notDot (Or.inl empty), fun dot => notDot (Or.inr dot), notParent,
                  noDirectory, Bool.eq_false_iff.mpr short⟩
              split at followed
              · next absent =>
                  split at followed
                  · next creating =>
                      obtain ⟨creating, rfl⟩ := creating
                      cases followed
                      exact .missing directory passable absent creating
                  · cases followed
              · next target found =>
                  split at followed
                  · next inspecting =>
                      obtain ⟨inspecting, rfl⟩ := inspecting
                      cases followed
                      exact .link directory passable found inspecting
                  · next through =>
                      obtain ⟨fewer, rfl, way⟩ := jumps _ _ _ followed
                      exact .jump directory passable found through way
              · next node plain found =>
                  exact .enter directory passable found
                    (fun target same => plain target same) (ih followed)

/-- What is done at a link depends on how many links may still be followed. -/
theorem follow_eq_advance (volume : Volume) (purpose : Purpose) (links : Nat) :
    ∃ jump, (∀ elements here, volume.follow purpose links elements here =
        volume.advance purpose jump elements here) ∧
      ∀ fewer, links = fewer + 1 → jump = volume.follow purpose fewer := by
  cases links with
  | zero => exact ⟨_, fun _ _ => rfl, fun _ same => by cases same⟩
  | succ fewer => exact ⟨_, fun _ _ => rfl, fun _ same => by cases same; rfl⟩

/-- A passable name is looked up in the directory. -/
theorem advance_name {volume : Volume} {purpose : Purpose}
    {jump : List Text → Place → Except AccessFault Place} {name : Text} {rest : List Text}
    {here : Place} {entries : List (Text × Node)}
    (directory : volume.at? here = some (.directory entries))
    (passable : Passable purpose here name rest) :
    volume.advance purpose jump (name :: rest) here =
      match entries.lookup name with
      | none =>
          if purpose = .create ∧ rest = [] then .ok (here ++ [name]) else .error .notFound
      | some (.link target) =>
          if purpose = .inspect ∧ rest = [] then .ok (here ++ [name])
          else
            jump (Path.elements target ++ rest) (if Path.isAbsolute target then [] else here)
      | some _ => volume.advance purpose jump rest (here ++ [name]) := by
  rw [advance, directory]
  have notDot : ¬ (name = [] ∨ name = ['.']) :=
    not_or.mpr ⟨passable.nonempty, passable.notHere⟩
  have short : ¬ exceedsLimit purpose here name = true := Bool.eq_false_iff.mp passable.short
  cases found : entries.lookup name with
  | none => simp [found, notDot, passable.notParent, passable.noDirectory, short]
  | some node =>
      cases node <;> simp [found, notDot, passable.notParent, passable.noDirectory, short]

/-- Along a way, elements are followed successfully. -/
theorem Way.follow_eq {volume : Volume} {purpose : Purpose} {links : Nat}
    {elements : List Text} {here place : Place}
    (way : Way volume purpose links elements here place) :
    volume.follow purpose links elements here = .ok place := by
  induction way with
  | done links here =>
      obtain ⟨jump, step, -⟩ := volume.follow_eq_advance purpose links
      rw [step, advance]
  | @stay links name rest here place entries directory dot way ih =>
      obtain ⟨jump, step, -⟩ := volume.follow_eq_advance purpose links
      rw [step] at ih
      rw [step, advance, directory]
      simp only [dot, ↓reduceIte, ih]
  | @parent links rest here place entries directory way ih =>
      obtain ⟨jump, step, -⟩ := volume.follow_eq_advance purpose links
      rw [step] at ih
      rw [step, advance, directory]
      simp [ih]
  | @enter links name rest here place entries node directory passable found plain way ih =>
      obtain ⟨jump, step, -⟩ := volume.follow_eq_advance purpose links
      rw [step] at ih
      rw [step, advance_name directory passable, found]
      cases node with
      | link target => exact (plain target rfl).elim
      | file bytes => exact ih
      | directory inner => exact ih
  | @jump links name target rest here place entries directory passable found through way ih =>
      obtain ⟨jump, step, fewer⟩ := volume.follow_eq_advance purpose (links + 1)
      rw [step, advance_name directory passable, found, fewer links rfl]
      simp only [through, ↓reduceIte, ih]
  | @link links name target here entries directory passable found inspecting =>
      obtain ⟨jump, step, -⟩ := volume.follow_eq_advance purpose links
      rw [step, advance_name directory passable, found]
      simp only [inspecting, and_self, ↓reduceIte]
  | @missing links name here entries directory passable absent creating =>
      obtain ⟨jump, step, -⟩ := volume.follow_eq_advance purpose links
      rw [step, advance_name directory passable, absent]
      simp only [creating, and_self, ↓reduceIte]

/-- **Following is finding a way.** -/
theorem follow_eq_ok_iff {volume : Volume} {purpose : Purpose} {links : Nat}
    {elements : List Text} {here place : Place} :
    volume.follow purpose links elements here = .ok place ↔
      Way volume purpose links elements here place := by
  refine ⟨fun followed => ?_, Way.follow_eq⟩
  induction links generalizing elements here place with
  | zero =>
      refine way_of_advance (fun _ _ _ impossible => ?_) followed
      cases impossible
  | succ links ih =>
      exact way_of_advance (fun _ _ _ jumped => ⟨links, rfl, ih jumped⟩) followed

end Volume

end AssemblyDigest
