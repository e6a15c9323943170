import AssemblyDigest.Proofs.Utf8.Encode
import AssemblyDigest.Volume.Walk

/-! # The order of names and places

Names are ordered by their bytes. Sorting entries by name puts entries with different names
in strictly increasing order, whatever is attached to the names. Places are ordered name by
name; a place comes before those below it.
-/

namespace AssemblyDigest

/-- Whether a name comes strictly before another, byte by byte. -/
def NameBefore (first second : Text) : Prop :=
  Utf8.encode first < Utf8.encode second

theorem nameLE_total (first second : Text) :
    nameLE first second = true ∨ nameLE second first = true := by
  simp only [nameLE, decide_eq_true_eq]
  exact List.le_total _ _

theorem nameLE_trans {first second third : Text} (before : nameLE first second = true)
    (after : nameLE second third = true) : nameLE first third = true := by
  simp only [nameLE, decide_eq_true_eq] at *
  exact List.le_trans before after

/-- Of two different names one comes strictly before the other. -/
theorem nameBefore_of_nameLE {first second : Text} (before : nameLE first second = true)
    (different : first ≠ second) : NameBefore first second :=
  Std.lt_of_le_of_ne (of_decide_eq_true before) fun same => different (Utf8.encode_injective same)

instance : Std.Irrefl NameBefore :=
  ⟨fun _ => List.lt_irrefl _⟩

instance : Std.Antisymm NameBefore :=
  ⟨fun _ _ before after => (List.lt_asymm before after).elim⟩

section Sorting

variable {α β : Type}

/-- Whether an entry comes before another by name or has the same name. -/
abbrev EntryLE (first second : Text × α) : Prop :=
  nameLE first.1 second.1 = true

/-- Inserting an entry keeps entries sorted. -/
theorem pairwise_insertByName (entry : Text × α) {entries : List (Text × α)}
    (sorted : entries.Pairwise EntryLE) : (insertByName entry entries).Pairwise EntryLE := by
  induction entries with
  | nil => exact List.pairwise_singleton _ _
  | cons other rest ih =>
      obtain ⟨least, restSorted⟩ := List.pairwise_cons.mp sorted
      rw [insertByName]
      split
      · next before =>
          refine List.pairwise_cons.mpr ⟨fun later member => ?_, sorted⟩
          rcases List.mem_cons.mp member with rfl | member
          · exact before
          · exact nameLE_trans before (least later member)
      · next notBefore =>
          refine List.pairwise_cons.mpr ⟨fun later member => ?_, ih restSorted⟩
          rcases List.mem_cons.mp ((perm_insertByName entry rest).mem_iff.mp member) with
            rfl | member
          · exact (nameLE_total _ _).resolve_left notBefore
          · exact least later member

theorem pairwise_sortByName (entries : List (Text × α)) :
    (sortByName entries).Pairwise EntryLE := by
  induction entries with
  | nil => exact .nil
  | cons entry rest ih => exact pairwise_insertByName entry ih

/-- Entries with different names are sorted in strictly increasing order. -/
theorem pairwise_sortByName_of_nodup {entries : List (Text × α)}
    (distinct : (entries.map (·.1)).Nodup) :
    (sortByName entries).Pairwise fun first second => NameBefore first.1 second.1 := by
  have names : (sortByName entries).Pairwise fun first second => first.1 ≠ second.1 :=
    List.pairwise_map.mp (((perm_sortByName entries).map _).nodup_iff.mpr distinct)
  exact (pairwise_sortByName entries).imp₂ (fun _ _ before => nameBefore_of_nameLE before) names

/-- Sorting looks at the names only. -/
theorem insertByName_map (change : Text × α → β) (entry : Text × α)
    (entries : List (Text × α)) :
    insertByName (entry.1, change entry) (entries.map fun other => (other.1, change other)) =
      (insertByName entry entries).map fun other => (other.1, change other) := by
  induction entries with
  | nil => rfl
  | cons other rest ih =>
      rw [List.map_cons, insertByName, insertByName, ih]
      split <;> rfl

/-- Sorting looks at names only. -/
theorem sortByName_map (change : Text × α → β) (entries : List (Text × α)) :
    sortByName (entries.map fun entry => (entry.1, change entry)) =
      (sortByName entries).map fun entry => (entry.1, change entry) := by
  induction entries with
  | nil => rfl
  | cons entry rest ih =>
      simp only [sortByName, List.map_cons, List.foldr_cons] at ih ⊢
      rw [ih, insertByName_map]

end Sorting

namespace Place

/-- Whether a place comes strictly before another, name by name and each name byte by
byte. -/
def Before (first second : Place) : Prop :=
  first.map Utf8.encode < second.map Utf8.encode

theorem before_irrefl (place : Place) : ¬ Before place place :=
  List.lt_irrefl _

instance : Std.Irrefl Before :=
  ⟨before_irrefl⟩

instance : Std.Antisymm Before :=
  ⟨fun _ _ before after => (List.lt_asymm before after).elim⟩

/-- Of two different places one comes before the other. -/
theorem eq_of_not_before {first second : Place} (notBefore : ¬ Before first second)
    (notAfter : ¬ Before second first) : first = second := by
  have names := List.le_antisymm (List.not_lt.mp notAfter) (List.not_lt.mp notBefore)
  exact (List.map_inj_right fun _ _ => Utf8.encode_injective).mp names

theorem not_before_nil (place : Place) : ¬ Before place [] :=
  List.not_lt_nil _

/-- Places are compared by their first names, if those differ. -/
theorem before_cons {first second : Text} (before : NameBefore first second)
    (place other : Place) : Before (first :: place) (second :: other) :=
  List.cons_lt_cons_iff.mpr (Or.inl before)

@[simp] theorem before_cons_self (name : Text) (place other : Place) :
    Before (name :: place) (name :: other) ↔ Before place other := by
  simp only [Before, List.map_cons, List.cons_lt_cons_iff, List.lt_irrefl, true_and, false_or]

/-- What stands before two places does not matter to their order. -/
@[simp] theorem before_append_left (first place other : Place) :
    Before (first ++ place) (first ++ other) ↔ Before place other := by
  induction first with
  | nil => rfl
  | cons name first ih => rw [List.cons_append, List.cons_append, before_cons_self, ih]

/-- A place below a later name does not come before one below an earlier name. -/
theorem not_before_cons {first second : Text} (before : NameBefore first second)
    (place other : Place) : ¬ Before (second :: other) (first :: place) :=
  List.lt_asymm (before_cons before place other)

end Place

end AssemblyDigest
