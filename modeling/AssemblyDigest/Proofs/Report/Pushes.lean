import AssemblyDigest.Proofs.Scan.Workspace
import Mathlib.Tactic.TFAE

/-! # Reports after any additions

A report keeps the files with snippets, in the order of the additions, and drops the others. Since
no file is kept without a snippet, everything that is seen of a report agrees on whether it is
empty: its list of files, the number of snippets and both texts
(`AssemblyDigest.Report.tfae_of_present`). Additions that follow others append to what these left,
so numbers add up and Markdown is written one part after the other
(`AssemblyDigest.Report.observed_ofPushes`).
-/

namespace AssemblyDigest

namespace Report

/-- The report after files were added one after the other, each with its snippets. -/
def ofPushes (files : List (Text × List Text)) : Report :=
  files.foldl (fun report file => report.push file.1 file.2) .empty

/-- The entries that added files leave: one for each file with snippets. -/
def keptEntries (files : List (Text × List Text)) : List ReportEntry :=
  (files.filter fun file => file.2 ≠ []).map fun file => ⟨Path.fileName file.1, file.1, file.2⟩

theorem keptEntries_append (first second : List (Text × List Text)) :
    keptEntries (first ++ second) = keptEntries first ++ keptEntries second := by
  rw [keptEntries, List.filter_append, List.map_append]
  rfl

/-- One more file is kept at the end, or dropped. -/
theorem entries_push (report : Report) (path : Text) (snippets : List Text) :
    (report.push path snippets).entries = report.entries ++ keptEntries [(path, snippets)] := by
  unfold push keptEntries
  cases snippets with
  | nil => simp
  | cons snippet more => simp [ReportEntry.of]

/-- Pushing files appends what is kept of them. -/
theorem entries_foldl_push (files : List (Text × List Text)) (report : Report) :
    (files.foldl (fun report file => report.push file.1 file.2) report).entries =
      report.entries ++ keptEntries files := by
  induction files generalizing report with
  | nil => exact (List.append_nil _).symm
  | cons file files ih =>
      rw [List.foldl_cons, ih, entries_push, List.append_assoc, ← keptEntries_append,
        List.singleton_append]

theorem entries_ofPushes (files : List (Text × List Text)) :
    (ofPushes files).entries = keptEntries files :=
  entries_foldl_push files .empty

/-- No file is kept without snippets. -/
theorem snippets_ne_nil_of_mem_keptEntries {files : List (Text × List Text)} {entry : ReportEntry}
    (member : entry ∈ keptEntries files) : entry.snippets ≠ [] := by
  obtain ⟨file, kept, rfl⟩ := List.mem_map.mp member
  exact of_decide_eq_true (List.mem_filter.mp kept).2

/-- Additions that follow others leave their entries after those of the others. -/
theorem ofPushes_append (first second : List (Text × List Text)) :
    ofPushes (first ++ second) = ⟨(ofPushes first).entries ++ (ofPushes second).entries⟩ := by
  have entries : (ofPushes (first ++ second)).entries =
      (ofPushes first).entries ++ (ofPushes second).entries := by
    simp only [entries_ofPushes, keptEntries_append]
  rw [← entries]

/-! ### When a report is empty -/

/-- Only a report without files is empty in Markdown. -/
theorem toMarkdown_eq_nil_iff {report : Report} {language : Text} :
    report.toMarkdown language = [] ↔ report.entries = [] := by
  obtain ⟨entries⟩ := report
  cases entries with
  | nil => exact ⟨fun _ => rfl, fun _ => rfl⟩
  | cons entry entries => simp [toMarkdown, ReportEntry.toMarkdown]

/-- Only a report without files is an empty list in JSON. -/
theorem toJson_eq_brackets_iff {report : Report} :
    report.toJson = ['[', ']'] ↔ report.entries = [] := by
  obtain ⟨entries⟩ := report
  cases entries with
  | nil => exact ⟨fun _ => rfl, fun _ => rfl⟩
  | cons entry entries => simp [toJson, toJsonValue, Json.pretty]

/-- If every file of a report has snippets, all that is seen of the report agrees on whether it is
empty. -/
theorem tfae_of_present {report : Report} (present : ∀ entry ∈ report.entries, entry.snippets ≠ [])
    (language : Text) :
    [report.isEmpty = true, report.snippetCount = 0, report.toMarkdown language = [],
      report.toJson = ['[', ']']].TFAE := by
  have atLeast : report.entries.length ≤ report.snippetCount := length_le_snippetCount present
  tfae_have 1 → 2 := by
    intro empty
    have none : report.entries = [] := List.isEmpty_iff.mp empty
    rw [snippetCount, none, List.foldr_nil]
  tfae_have 2 → 3 := by
    intro zero
    rw [zero] at atLeast
    exact toMarkdown_eq_nil_iff.mpr (List.length_eq_zero_iff.mp (Nat.le_zero.mp atLeast))
  tfae_have 3 → 4 := by
    intro blank
    exact toJson_eq_brackets_iff.mpr (toMarkdown_eq_nil_iff.mp blank)
  tfae_have 4 → 1 := by
    intro brackets
    exact List.isEmpty_iff.mpr (toJson_eq_brackets_iff.mp brackets)
  tfae_finish

/-- **What additions leave.** A report lists exactly the added files with snippets, in order and
with repetitions, and none without snippets. Its list of files, its number of snippets and its
texts in both formats agree on whether it is empty. If files are added after others, the numbers of
snippets add up and the Markdown texts stand one after the other. -/
theorem observed_ofPushes :
    (∀ files : List (Text × List Text),
      (ofPushes files).entries =
        (files.filter fun file => file.2 ≠ []).map fun file =>
          ⟨Path.fileName file.1, file.1, file.2⟩) ∧
    (∀ files, ∀ entry ∈ (ofPushes files).entries, entry.snippets ≠ []) ∧
    (∀ files language,
      [(ofPushes files).isEmpty = true, (ofPushes files).snippetCount = 0,
        (ofPushes files).toMarkdown language = [], (ofPushes files).toJson = ['[', ']']].TFAE) ∧
    ∀ first second,
      (ofPushes (first ++ second)).snippetCount =
        (ofPushes first).snippetCount + (ofPushes second).snippetCount ∧
      ∀ language, (ofPushes (first ++ second)).toMarkdown language =
        (ofPushes first).toMarkdown language ++ (ofPushes second).toMarkdown language := by
  have present : ∀ files, ∀ entry ∈ (ofPushes files).entries, entry.snippets ≠ [] := by
    intro files entry member
    rw [entries_ofPushes] at member
    exact snippets_ne_nil_of_mem_keptEntries member
  refine ⟨entries_ofPushes, present, fun files => tfae_of_present (present files),
    fun first second => ⟨?_, fun language => ?_⟩⟩
  · rw [ofPushes_append, snippetCount_append]
  · rw [ofPushes_append, toMarkdown, List.flatMap_append]
    rfl

-- Without the rule that drops files without snippets, the number of snippets would not tell.
example : snippetCount ⟨[⟨['a'], ['a'], []⟩]⟩ = 0 ∧ isEmpty ⟨[⟨['a'], ['a'], []⟩]⟩ = false := by
  decide

end Report

end AssemblyDigest
