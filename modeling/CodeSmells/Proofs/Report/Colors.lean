import CodeSmells.Command.Run
import CodeSmells.Proofs.Report.Counts
import CodeSmells.Proofs.Text.Styled

/-!
# The colors of a report

With colors, headings and parts of lines are put between an opening sequence and a
reset.  A report whose texts have no escapes says the same with colors as without.

**Results.**

* `hasPlainTexts_ofWarnings`: the report on warnings has no escapes if they have none.
* `escapeFree_pieces`: the pieces of such a report have no escapes either.
* `course_of_noColor`: an analysis that is not to use colors.
* `colors_are_decoration`: the text of a report with colors and without.
-/

namespace CodeSmells

open Styling StyledPiece

/-- No text of the warning that a report shows has an escape. -/
structure Warning.HasPlainTexts (warning : Warning) : Prop where
  source : IsEscapeFree warning.source.text
  context : IsEscapeFree warning.context
  message : IsEscapeFree warning.message
  smellType : IsEscapeFree warning.smellType

namespace Report

/-- No text in the report has an escape. -/
structure HasPlainTexts (report : Report) : Prop where
  warning : ∀ warning ∈ report.warnings, warning.HasPlainTexts
  /-- The smell types that are counted. -/
  counted : ∀ name ∈ report.countsBySmellType.names, IsEscapeFree name

/-- The report on warnings has no texts but theirs. -/
theorem hasPlainTexts_ofWarnings {warnings : List Warning}
    (h : ∀ warning ∈ warnings, warning.HasPlainTexts) (contextsExamined : Nat) :
    (ofWarnings contextsExamined warnings).HasPlainTexts := by
  have hsorted : ∀ warning ∈ sortWarnings warnings, warning.HasPlainTexts := fun warning hmem =>
    h warning ((sortWarnings_perm warnings).mem_iff.1 hmem)
  refine ⟨hsorted, fun name hname => ?_⟩
  obtain ⟨warning, hmem, rfl⟩ := List.mem_map.1 (mem_names_countSmellTypes_iff.1 hname)
  exact (hsorted warning hmem).smellType

section Pieces

variable {report : Report}

theorem escapeFree_banner (report : Report) :
    ∀ piece ∈ report.banner, IsEscapeFree piece.text := by
  simp only [banner, plain, styled, List.forall_mem_cons, isEscapeFree_append_iff]
  exact ⟨by decide, by decide, ⟨⟨by decide, isEscapeFree_toString _⟩, by decide⟩,
    List.forall_mem_nil _⟩

theorem escapeFree_allClear : ∀ piece ∈ allClear, IsEscapeFree piece.text := by
  decide

theorem escapeFree_warningLine {warning : Warning} (h : warning.HasPlainTexts) :
    ∀ piece ∈ warningLine warning, IsEscapeFree piece.text := by
  have hlines : IsEscapeFree warning.lineList := by
    refine isEscapeFree_intercalate (by decide) fun text htext => ?_
    obtain ⟨line, -, rfl⟩ := List.mem_map.1 htext
    exact isEscapeFree_toString line
  simp only [warningLine, plain, styled, List.forall_mem_cons, isEscapeFree_append_iff]
  exact ⟨by decide, hlines, by decide, h.context, ⟨⟨by decide, h.message⟩, by decide⟩,
    h.smellType, by decide, List.forall_mem_nil _⟩

theorem escapeFree_warningLines {warnings : List Warning}
    (h : ∀ warning ∈ warnings, warning.HasPlainTexts) (before : Option Path) :
    ∀ piece ∈ warningLines before warnings, IsEscapeFree piece.text := by
  induction warnings generalizing before with
  | nil => exact List.forall_mem_nil _
  | cons warning warnings ih =>
      obtain ⟨hwarning, hrest⟩ := List.forall_mem_cons.1 h
      have hheading : ∀ piece ∈ heading warning.source, IsEscapeFree piece.text := by
        simp only [heading, plain, styled, List.forall_mem_cons]
        exact ⟨by decide, hwarning.source, by decide, List.forall_mem_nil _⟩
      rw [warningLines, List.forall_mem_append, List.forall_mem_append]
      refine ⟨⟨?_, escapeFree_warningLine hwarning⟩, ih hrest _⟩
      split
      · exact hheading
      · exact List.forall_mem_nil _

theorem escapeFree_summaryRow {name : String} (h : IsEscapeFree name) (count : Nat) :
    IsEscapeFree (summaryRow name count).text := by
  have hblanks (n : Nat) : IsEscapeFree (String.ofList (List.replicate n ' ')) := by
    rw [IsEscapeFree, String.toList_ofList, List.mem_replicate]
    rintro ⟨-, hblank⟩
    exact absurd hblank (by decide)
  simp only [summaryRow, plain, padRight, isEscapeFree_append_iff]
  exact ⟨⟨⟨⟨by decide, h, hblanks _⟩, by decide⟩, isEscapeFree_toString count⟩, by decide⟩

theorem escapeFree_summary
    (h : ∀ name ∈ report.countsBySmellType.names, IsEscapeFree name) :
    ∀ piece ∈ report.summary, IsEscapeFree piece.text := by
  rw [summary, List.forall_mem_append, List.forall_mem_append]
  refine ⟨⟨by decide, ?_⟩, ?_⟩
  · intro piece hpiece
    obtain ⟨e, he, rfl⟩ := List.mem_map.1 hpiece
    exact escapeFree_summaryRow (h e.1 (List.mem_map_of_mem he)) e.2
  · rw [List.forall_mem_cons]
    exact ⟨escapeFree_summaryRow (by decide) _, by decide⟩

/-- The program adds no escapes to the texts of a report. -/
theorem escapeFree_pieces (h : report.HasPlainTexts) (quiet : Bool) :
    ∀ piece ∈ report.pieces quiet, IsEscapeFree piece.text := by
  have hlines := escapeFree_warningLines h.warning none
  have hsummary := escapeFree_summary h.counted
  have hend : ∀ piece ∈ [plain "\n"], IsEscapeFree piece.text := by decide
  rw [pieces, List.forall_mem_append]
  constructor
  · split
    · exact List.forall_mem_nil _
    · exact escapeFree_banner report
  · split
    · split
      · exact List.forall_mem_nil _
      · exact escapeFree_allClear
    · rw [List.forall_mem_append, List.forall_mem_append]
      refine ⟨⟨hlines, hend⟩, ?_⟩
      split
      · exact List.forall_mem_nil _
      · exact hsummary

end Pieces

end Report

namespace Analyze

variable {request : AnalyzeRequest}

theorem success_of_noColor (h : request.noColor = true) (format : OutputFormat) (colors : Bool)
    (report : Report) :
    success request format colors report =
      success { request with noColor := false } format false report := by
  simp only [success, reportText, h, Bool.not_true, Bool.and_false, Bool.false_and]

/-- An analysis that is not to use colors is one whose surroundings have none. -/
theorem course_of_noColor (h : request.noColor = true) (tree : FileTree) (colors : Bool) :
    course tree request colors = course tree { request with noColor := false } false := by
  have hexamine (config : Config) (contexts : List Context) :
      examine request colors config contexts =
        examine { request with noColor := false } false config contexts := by
    simp only [examine, success_of_noColor h]
  simp only [course, examineLoaded, hexamine]
  rfl

end Analyze

namespace Report

/--
With colors, the text of a report whose texts have no escapes is the text without
colors and style sequences in it.  The sequences are openings and resets in turn, from
an opening to a reset, and each character is shown in the style of the piece that it
belongs to, so none is shown in the style of another piece.  A command line that asks
for no colors has the outcome that it would have where there are none, whatever its
surroundings allow.
-/
theorem colors_are_decoration (report : Report) (quiet : Bool) (h : report.HasPlainTexts) :
    let colored := (report.text quiet true).toList
    let bare := (report.text quiet false).toList
    erase colored = bare ∧
    Alternates (sequences colored) ∧
    shown [] (marks colored) = (report.pieces quiet).flatMap pieceShown ∧
    (∀ request colors, request.quiet = quiet → request.noColor = true →
      (Analyze.reportText request .text colors report).toList = bare) ∧
    (∀ surroundings tree arguments request,
      Request.ofArguments? arguments = some (.analyze request) → request.noColor = true →
      Command.run surroundings tree arguments =
        Command.runRequest { surroundings with colors := false } tree
          (.analyze { request with noColor := false })) := by
  intro colored bare
  have hpieces := escapeFree_pieces h quiet
  refine ⟨erase_renderPieces hpieces, alternates_renderPieces hpieces,
    shown_renderPieces hpieces, ?_, ?_⟩
  · rintro request colors rfl hnoColor
    simp only [Analyze.reportText, hnoColor, Bool.not_true, Bool.and_false, bare]
  · intro surroundings tree arguments request hrequest hnoColor
    simp only [Command.run, hrequest, Command.runRequest, Analyze.course_of_noColor hnoColor]

/-- A name that goes on like a sequence, an empty list of lines, and a blank message. -/
theorem colors_of_one_warning :
    let warning : Warning :=
      ⟨"BooleanParameter", "Shape#[0m", ⟨"shape.rb"⟩, [], "", NameMap.empty⟩
    let report := ofWarnings 1 [warning]
    report.HasPlainTexts ∧
    erase (report.text false true).toList = (report.text false false).toList ∧
    Alternates (sequences (report.text true true).toList) := by
  intro warning report
  have hwarning : warning.HasPlainTexts := by
    constructor <;> decide
  have hplain : report.HasPlainTexts :=
    hasPlainTexts_ofWarnings (List.forall_mem_singleton.2 hwarning) 1
  exact ⟨hplain, (colors_are_decoration report false hplain).1,
    (colors_are_decoration report true hplain).2.1⟩

end Report
end CodeSmells
