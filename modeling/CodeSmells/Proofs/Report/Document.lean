import CodeSmells.Proofs.Json.Decoding
import CodeSmells.Proofs.Report.Counts
import CodeSmells.Report.Text

/-!
# The document of a report

A report is written as one JSON document, on many lines.  Everything in the report
can be taken out of the document again, by the names of its members.

**Results.**

* `Warning.decodes_toJson`, `decodes_toJson`: warnings and reports come back from JSON.
* `isWhole_toJson`: the JSON of a report whose numbers have 64 bits can be read.
* `json_decodes_to_report`: reports come back from their documents.
-/

namespace CodeSmells

open Json

namespace Warning

/-- A warning as JSON holds it. -/
def ofJson? (value : Json) : Option Warning := do
  let smellType ← field? "smell_type" text? value
  let context ← field? "context" text? value
  let source ← field? "source" text? value
  let lines ← field? "lines" (list? natural?) value
  let message ← field? "message" text? value
  let parameters ← field? "parameters" (map? text?) value
  some { smellType, context, source := ⟨source⟩, lines, message, parameters }

/-- Every field of a warning comes back from JSON. -/
theorem decodes_toJson (warning : Warning) : Decodes ofJson? warning.toJson warning := by
  have hnodup : ["smell_type", "context", "source", "lines", "message", "parameters"].Nodup := by
    decide
  have hsmell : Decodes (field? "smell_type" text?) warning.toJson warning.smellType :=
    decodes_field hnodup (by simp) (decodes_text _)
  have hcontext : Decodes (field? "context" text?) warning.toJson warning.context :=
    decodes_field hnodup (by simp) (decodes_text _)
  have hsource : Decodes (field? "source" text?) warning.toJson warning.source.text :=
    decodes_field hnodup (by simp) (decodes_text _)
  have hlines : Decodes (field? "lines" (list? natural?)) warning.toJson warning.lines :=
    decodes_field hnodup (by simp) (decodes_list fun line _ => decodes_natural line)
  have hmessage : Decodes (field? "message" text?) warning.toJson warning.message :=
    decodes_field hnodup (by simp) (decodes_text _)
  have hparameters :
      Decodes (field? "parameters" (map? text?)) warning.toJson warning.parameters :=
    decodes_field hnodup (by simp) (decodes_map warning.parameters decodes_text)
  constructor
  · rw [ofJson?, hsmell.written, hcontext.written, hsource.written, hlines.written,
      hmessage.written, hparameters.written]
    rfl
  · rw [ofJson?, hsmell.sorted, hcontext.sorted, hsource.sorted, hlines.sorted,
      hmessage.sorted, hparameters.sorted]
    rfl

theorem isWhole_toJson {warning : Warning} (h : ∀ line ∈ warning.lines, line < 2 ^ 64) :
    IsWhole 2 warning.toJson := by
  have hlines : IsWhole 1 (.array (warning.lines.map Json.natural)) := by
    refine IsWhole.array fun v hv => ?_
    obtain ⟨line, hline, rfl⟩ := List.mem_map.1 hv
    exact isWhole_natural (h line hline)
  have hparameters : IsWhole 1 (ofMap Json.text warning.parameters.entries) := by
    refine IsWhole.object fun e he => ?_
    obtain ⟨entry, -, rfl⟩ := List.mem_map.1 he
    exact isWhole_text entry.2
  refine IsWhole.object fun e he => ?_
  simp only [List.mem_cons, List.not_mem_nil, or_false] at he
  rcases he with rfl | rfl | rfl | rfl | rfl | rfl
  · exact isWhole_text _
  · exact isWhole_text _
  · exact isWhole_text _
  · exact hlines
  · exact isWhole_text _
  · exact hparameters

end Warning

namespace Report

/-- A report as JSON holds it. -/
def ofJson? (value : Json) : Option Report := do
  let contextsExamined ← field? "contexts_examined" natural? value
  let totalWarnings ← field? "total_warnings" natural? value
  let countsBySmellType ← field? "warnings_by_smell_type" (map? natural?) value
  let warnings ← field? "warnings" (list? Warning.ofJson?) value
  some { contextsExamined, totalWarnings, countsBySmellType, warnings }

/-- Every field of a report comes back from JSON. -/
theorem decodes_toJson (report : Report) : Decodes ofJson? report.toJson report := by
  have hnodup : ["contexts_examined", "total_warnings", "warnings_by_smell_type",
      "warnings"].Nodup := by
    decide
  have hexamined :
      Decodes (field? "contexts_examined" natural?) report.toJson report.contextsExamined :=
    decodes_field hnodup (by simp) (decodes_natural _)
  have htotal : Decodes (field? "total_warnings" natural?) report.toJson report.totalWarnings :=
    decodes_field hnodup (by simp) (decodes_natural _)
  have hcounts : Decodes (field? "warnings_by_smell_type" (map? natural?)) report.toJson
      report.countsBySmellType :=
    decodes_field hnodup (by simp) (decodes_map report.countsBySmellType decodes_natural)
  have hwarnings :
      Decodes (field? "warnings" (list? Warning.ofJson?)) report.toJson report.warnings :=
    decodes_field hnodup (by simp) (decodes_list fun warning _ => warning.decodes_toJson)
  constructor
  · rw [ofJson?, hexamined.written, htotal.written, hcounts.written, hwarnings.written]
    rfl
  · rw [ofJson?, hexamined.sorted, htotal.sorted, hcounts.sorted, hwarnings.sorted]
    rfl

section Numbers

/-- The numbers that go into a report have 64 bits. -/
structure HasNumbers64 (contextsExamined : Nat) (warnings : List Warning) : Prop where
  contexts : contextsExamined < 2 ^ 64
  total : warnings.length < 2 ^ 64
  lines : ∀ warning ∈ warnings, ∀ line ∈ warning.lines, line < 2 ^ 64

/-- No smell type occurs more often than there are warnings. -/
theorem le_length_of_mem_countSmellTypes {warnings : List Warning} {e : String × Nat}
    (h : e ∈ (countSmellTypes warnings).entries) : e.2 ≤ warnings.length := by
  obtain ⟨name, count⟩ := e
  obtain ⟨-, rfl⟩ := mem_countSmellTypes_iff.1 h
  exact Nat.le_trans List.count_le_length (List.length_map _).le

/-- The JSON of a report whose numbers have 64 bits is printed and read without loss. -/
theorem isWhole_toJson {contextsExamined : Nat} {warnings : List Warning}
    (h : HasNumbers64 contextsExamined warnings) :
    IsWhole 4 (ofWarnings contextsExamined warnings).toJson := by
  have hperm := sortWarnings_perm warnings
  have hlength : (sortWarnings warnings).length < 2 ^ 64 := hperm.length_eq ▸ h.total
  have hcounts : IsWhole 3
      (ofMap Json.natural (countSmellTypes (sortWarnings warnings)).entries) := by
    refine IsWhole.object fun e he => ?_
    obtain ⟨entry, hentry, rfl⟩ := List.mem_map.1 he
    exact isWhole_natural (Nat.lt_of_le_of_lt (le_length_of_mem_countSmellTypes hentry) hlength)
  have hwarnings : IsWhole 3 (.array ((sortWarnings warnings).map Warning.toJson)) := by
    refine IsWhole.array fun v hv => ?_
    obtain ⟨warning, hwarning, rfl⟩ := List.mem_map.1 hv
    exact Warning.isWhole_toJson (h.lines warning (hperm.mem_iff.1 hwarning))
  refine IsWhole.object fun e he => ?_
  simp only [List.mem_cons, List.not_mem_nil, or_false] at he
  rcases he with rfl | rfl | rfl | rfl
  · exact isWhole_natural h.contexts
  · exact isWhole_natural hlength
  · exact hcounts
  · exact hwarnings

end Numbers

/--
A report whose numbers have 64 bits is written as one JSON document and a line end.
It is read to the value that the document without blanks is read to, and the whole
report comes back from this value, in whatever order its members stand.  So different
reports are written differently.
-/
theorem json_decodes_to_report (contextsExamined : Nat) (warnings : List Warning)
    (h : HasNumbers64 contextsExamined warnings) :
    let report := ofWarnings contextsExamined warnings
    (∃ document, report.json = document ++ "\n" ∧ Writes report.toJson document.toList) ∧
    (∃ value, parse readAny report.json = .ok value ∧
      parse readAny report.toJson.compact = .ok value ∧
      ofJson? value = some report ∧ ofJson? value.sortMembers = some report) ∧
    ∀ (examined : Nat) (others : List Warning), HasNumbers64 examined others →
      (ofWarnings examined others).json = report.json → ofWarnings examined others = report := by
  intro report
  have hwhole {examined : Nat} {others : List Warning} (hothers : HasNumbers64 examined others) :
      IsWhole maxDepth (ofWarnings examined others).toJson :=
    (isWhole_toJson hothers).mono (by decide)
  have hdecodes := decodes_toJson report
  refine ⟨⟨_, rfl, (hwhole h).writes_pretty⟩, ⟨report.toJson, (hwhole h).parse_pretty,
    (hwhole h).parse_compact, hdecodes.written, hdecodes.sorted⟩, ?_⟩
  intro examined others hothers htext
  have hvalue : (ofWarnings examined others).toJson = report.toJson := by
    have hparse : parse readAny (ofWarnings examined others).json = .ok _ :=
      (hwhole hothers).parse_pretty
    have hread : parse readAny report.json = .ok _ := (hwhole h).parse_pretty
    rw [htext, hread] at hparse
    exact (Except.ok.inj hparse).symm
  have hother := (decodes_toJson (ofWarnings examined others)).written
  rw [hvalue, hdecodes.written] at hother
  exact (Option.some.inj hother).symm

/-- A warning with quotes, a line break and the last line there can be comes back. -/
theorem json_decodes_to_report_escaped :
    let warning : Warning :=
      { smellType := "A\"\\", context := "Ü#ß", source := ⟨"dir\t/a.rb"⟩
        lines := [1, 2 ^ 64 - 1], message := "a\nb\x00"
        parameters := NameMap.empty.insert "" "\x7f" }
    let report := ofWarnings 3 [warning, warning]
    HasNumbers64 3 [warning, warning] ∧
      ∃ value, parse readAny report.json = .ok value ∧ ofJson? value = some report := by
  intro warning report
  have hnumbers : HasNumbers64 3 [warning, warning] := by
    refine ⟨by decide, by decide, ?_⟩
    simp [warning]
  obtain ⟨-, ⟨value, hparse, -, hdecoded, -⟩, -⟩ := json_decodes_to_report 3 _ hnumbers
  exact ⟨hnumbers, value, hparse, hdecoded⟩

end Report
end CodeSmells
