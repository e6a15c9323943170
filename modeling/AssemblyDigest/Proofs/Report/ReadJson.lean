import AssemblyDigest.Proofs.Json.Pretty
import AssemblyDigest.Report

/-! # Reading JSON reports back

The JSON text of a report denotes a list with one record for each file, in order, that holds
the name, the path and the snippets of the file as they are, whatever characters they consist
of. Every reader that follows the grammar therefore gives them back, and different reports have
different texts (`AssemblyDigest.Report.read?_toJson`).
-/

namespace AssemblyDigest

open Json (Value)

/-- What a file of a report denotes in JSON. -/
def ReportEntry.meaning (entry : ReportEntry) : Value :=
  .record
    [("file".toList, .text entry.fileName),
     ("path".toList, .text entry.path),
     ("snippets".toList, .list (entry.snippets.map .text))]

/-- The record of an entry has the meaning of the entry. -/
theorem ReportEntry.value_toJsonValue (entry : ReportEntry) :
    entry.toJsonValue.value = entry.meaning := by
  have snippets : Json.values (entry.snippets.map .text) = entry.snippets.map .text := by
    rw [Json.values_eq_map, List.map_map]
    rfl
  simp only [ReportEntry.toJsonValue, Json.value, Json.fieldValues, snippets, meaning]

theorem ReportEntry.meaning_injective : Function.Injective ReportEntry.meaning := by
  intro first second same
  obtain ⟨fileName, path, snippets⟩ := first
  obtain ⟨otherName, otherPath, otherSnippets⟩ := second
  simp only [meaning, Value.record.injEq, List.cons.injEq, Prod.mk.injEq, true_and,
    Value.text.injEq, Value.list.injEq, and_true] at same
  obtain ⟨rfl, rfl, lists⟩ := same
  have texts := (List.map_inj_right fun _ _ => Value.text.inj).mp lists
  rw [texts]

namespace Report

/-- What a report denotes in JSON. -/
def meaning (report : Report) : Value :=
  .list (report.entries.map ReportEntry.meaning)

/-- The list of a report has the meaning of the report. -/
theorem value_toJsonValue (report : Report) : report.toJsonValue.value = report.meaning := by
  rw [toJsonValue, Json.value, Json.values_eq_map, List.map_map, meaning]
  exact congrArg Value.list (List.map_congr_left fun entry _ => entry.value_toJsonValue)

theorem meaning_injective : Function.Injective meaning := by
  rintro ⟨first⟩ ⟨second⟩ same
  have entries : first = second :=
    (List.map_inj_right fun _ _ equal => ReportEntry.meaning_injective equal).mp
      (Value.list.inj same)
  rw [entries]

/-- **JSON reports can be read back.** The text of a report is well-formed JSON that denotes the
names, paths and snippets of its files and is read as that. Reports with the same text are the
same; in particular they have the same paths with the same snippets. -/
theorem read?_toJson :
    (∀ report : Report, Json.Document report.toJson report.meaning ∧
      Json.read? report.toJson = some report.meaning) ∧
    Function.Injective toJson := by
  have reads : ∀ report : Report, Json.read? report.toJson = some report.meaning := by
    intro report
    rw [toJson, Json.read?_pretty, value_toJsonValue]
  refine ⟨fun report => ⟨Json.read?_eq_some_iff.mp (reads report), reads report⟩, ?_⟩
  intro first second same
  have found := reads first
  rw [same, reads second] at found
  exact (meaning_injective (Option.some.inj found)).symm

end Report

end AssemblyDigest
