import CodeSmells.Command.Analyze
import CodeSmells.Proofs.Report.Document
import CodeSmells.Proofs.Report.Listing

/-!
# What is printed of a report

The text of a report is laid out in full: the banner, the line of each warning, the
headings between them and the summary, each style with its sequences.  As JSON it is
printed as its document, from which the whole report can be taken.

**Results.**

* `text_eq_printed`: the text of a report, with colors and without.
* `shows_ofWarnings`: an analysis shows its report, whatever the format is.
-/

namespace CodeSmells
namespace Report

open StyledPiece

section Texts

/--
A text in a style with these numbers.  The style starts before the text, and again
after each reset in it, and ends behind it.
-/
def painted (colors : Bool) (numbers text : String) : String :=
  if colors then
    let opening := "\x1b[" ++ numbers ++ "m"
    opening ++ String.ofList (reopen opening.toList text.toList) ++ "\x1b[0m"
  else text

/-- The line of a warning, below its source where the one before is another. -/
def printedWarning (colors : Bool) (entry : Option Path × Warning) : String :=
  ((heading? entry).elim "" fun source => "  " ++ painted colors "4" source.text ++ "\n") ++
    ("    [" ++ painted colors "2" (String.intercalate ", " (entry.2.lines.map toString)) ++
      "]:" ++ painted colors "1" entry.2.context ++ " " ++ entry.2.message ++
      " (" ++ painted colors "33" entry.2.smellType ++ ")\n")

/-- The banner. -/
def printedBanner (colors : Bool) (report : Report) : String :=
  "\n" ++ painted colors "1" "  smellguard - Code Smell Detection" ++
    "\n  Contexts examined: " ++ toString report.contextsExamined ++ "\n\n"

/-- The summary. -/
def printedSummary (colors : Bool) (report : Report) : String :=
  painted colors "1;4" "  Summary" ++ "\n" ++
    String.join (report.countsBySmellType.entries.map fun e => rowText e.1 e.2) ++
    rowText "Total" report.totalWarnings ++ "\n"

/-- A report as text: the warnings, and what is around them unless it is to be quiet. -/
def printed (report : Report) (quiet colors : Bool) : String :=
  (if quiet then "" else printedBanner colors report) ++
    if report.warnings = [] then
      if quiet then "" else "  " ++ painted colors "1;32" "✓" ++ " No smells found.\n\n"
    else
      String.join ((withBefore none report.warnings).map (printedWarning colors)) ++ "\n" ++
        if quiet then "" else printedSummary colors report

variable (colors : Bool)

/-- The texts of pieces, as they are rendered one by one. -/
def rendered (pieces : List StyledPiece) : String :=
  String.join (pieces.map fun piece => String.ofList (piece.render colors))

theorem renderPieces_eq (pieces : List StyledPiece) :
    renderPieces colors pieces = rendered colors pieces := by
  rw [← String.toList_inj, rendered, String.toList_join, renderPieces, String.toList_ofList,
    List.flatMap_map]
  exact List.flatMap_congr fun piece _ => String.toList_ofList.symm

@[simp] theorem rendered_nil : rendered colors [] = "" := rfl

@[simp] theorem rendered_append (pieces more : List StyledPiece) :
    rendered colors (pieces ++ more) = rendered colors pieces ++ rendered colors more := by
  rw [rendered, List.map_append, String.join_append, rendered, rendered]

@[simp] theorem rendered_plain (text : String) (pieces : List StyledPiece) :
    rendered colors (plain text :: pieces) = text ++ rendered colors pieces := by
  rw [rendered, List.map_cons, String.join_cons, rendered]
  congr 1
  exact String.ofList_toList

@[simp] theorem rendered_styled (style : Style) (text : String) (pieces : List StyledPiece) :
    rendered colors (styled style text :: pieces) =
      painted colors style.code text ++ rendered colors pieces := by
  rw [rendered, List.map_cons, String.join_cons, rendered]
  congr 1
  cases colors with
  | false => exact String.ofList_toList
  | true =>
      have hopening : ("\x1b[" ++ style.code ++ "m").toList = style.opening := by
        simp only [String.toList_append, Style.opening]
        rfl
      rw [← String.toList_inj, String.toList_ofList, painted, if_pos rfl]
      simp only [hopening, String.toList_append, String.toList_ofList]
      rfl

/-- The lines of warnings are what is printed of each of them. -/
theorem rendered_warningLines (before : Option Path) (warnings : List Warning) :
    rendered colors (warningLines before warnings) =
      String.join ((withBefore before warnings).map (printedWarning colors)) := by
  induction warnings generalizing before with
  | nil => rfl
  | cons warning warnings ih =>
      rw [warningLines, withBefore_cons, List.map_cons, String.join_cons, printedWarning,
        heading?_eq, rendered_append, rendered_append, ih]
      congr 1
      cases startsGroup before warning with
      | true => simp [heading, warningLine, Style.code, Warning.lineList, String.append_assoc]
      | false => simp [warningLine, Style.code, Warning.lineList, String.append_assoc]

theorem rendered_banner (report : Report) :
    rendered colors report.banner = printedBanner colors report := by
  simp [banner, printedBanner, Style.code, String.append_assoc]

theorem rendered_allClear :
    rendered colors allClear = "  " ++ painted colors "1;32" "✓" ++ " No smells found.\n\n" := by
  simp [allClear, Style.code, String.append_assoc]

theorem rendered_rows (entries : List (String × Nat)) :
    rendered colors (entries.map fun e => summaryRow e.1 e.2) =
      String.join (entries.map fun e => rowText e.1 e.2) := by
  induction entries with
  | nil => rfl
  | cons e entries ih =>
      rw [List.map_cons, List.map_cons, String.join_cons, ← ih]
      exact rendered_plain colors _ _

theorem rendered_summary (report : Report) :
    rendered colors report.summary = printedSummary colors report := by
  have htotal : rendered colors [summaryRow "Total" report.totalWarnings, plain "\n"] =
      rowText "Total" report.totalWarnings ++ "\n" := by
    rw [summaryRow, rendered_plain, rendered_plain]
    simp [rowText]
  rw [summary, rendered_append, rendered_append, rendered_rows, htotal]
  simp [printedSummary, Style.code, String.append_assoc]

/-- The text of a report, quiet or not, with colors or without. -/
theorem text_eq_printed (report : Report) (quiet : Bool) :
    report.text quiet colors = report.printed quiet colors := by
  rw [text, renderPieces_eq, pieces, printed, rendered_append]
  congr 1
  · cases quiet with
    | true => rfl
    | false => exact rendered_banner colors report
  · by_cases hempty : report.warnings = []
    · rw [if_pos hempty, hempty, List.isEmpty_nil, if_pos rfl]
      cases quiet with
      | true => rfl
      | false => exact rendered_allClear colors
    · rw [if_neg hempty, List.isEmpty_eq_false_iff.2 hempty, if_neg Bool.false_ne_true,
        rendered_append, rendered_append, rendered_warningLines, rendered_plain, rendered_nil,
        String.append_empty]
      congr 1
      cases quiet with
      | true => rfl
      | false => exact rendered_summary colors report

end Texts

section Formats

/--
A text shows a report.  As JSON it is its document on many lines, which is read back to
the whole report as long as all numbers have 64 bits.
-/
inductive Shows (report : Report) (quiet colors : Bool) : OutputFormat → String → Prop
  | text : Shows report quiet colors .text (report.printed quiet colors)
  | json {document : String} :
      document = report.toJson.pretty ++ "\n" →
      (HasNumbers64 report.contextsExamined report.warnings →
        ∃ value, Json.parse Json.readAny document = .ok value ∧ ofJson? value = some report) →
      Shows report quiet colors .json document

/-- A report is shown whatever the format is. -/
theorem shows_ofWarnings (contextsExamined : Nat) (warnings : List Warning)
    (request : AnalyzeRequest) (format : OutputFormat) (colors : Bool) :
    let report := ofWarnings contextsExamined warnings
    Shows report request.quiet (colors && !request.noColor) format
      (Analyze.reportText request format colors report) := by
  intro report
  cases format with
  | text =>
      rw [Analyze.reportText, text_eq_printed]
      exact .text
  | json =>
      refine .json rfl fun hnumbers => ?_
      have hperm := sortWarnings_perm warnings
      have hgiven : HasNumbers64 contextsExamined warnings :=
        ⟨hnumbers.contexts, hperm.length_eq ▸ hnumbers.total,
          fun warning hmem => hnumbers.lines warning (hperm.mem_iff.2 hmem)⟩
      have hwhole : Json.IsWhole Json.maxDepth report.toJson :=
        (isWhole_toJson hgiven).mono (by decide)
      exact ⟨report.toJson, hwhole.parse_pretty, (decodes_toJson report).written⟩

end Formats

end Report
end CodeSmells
