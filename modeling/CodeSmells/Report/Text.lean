import CodeSmells.Report.Basic
import CodeSmells.Text.Styled

/-!
# Reports as text

The text of a report lists the warnings under their sources.  Unless it is to
be quiet, a banner stands before them and a summary after them.
-/

namespace CodeSmells
namespace Report

open StyledPiece

/-- A text with blanks after it, up to a width in characters. -/
def padRight (width : Nat) (text : String) : String :=
  text ++ String.ofList (List.replicate (width - text.length) ' ')

/-- The lines before the warnings. -/
def banner (report : Report) : List StyledPiece :=
  [plain "\n",
   styled .bold "  smellguard - Code Smell Detection",
   plain ("\n  Contexts examined: " ++ toString report.contextsExamined ++ "\n\n")]

/-- The line for a report without warnings. -/
def allClear : List StyledPiece :=
  [plain "  ", styled .boldGreen "✓", plain " No smells found.\n\n"]

/-- The line of a source. -/
def heading (source : Path) : List StyledPiece :=
  [plain "  ", styled .underlined source.text, plain "\n"]

/-- The line of a warning. -/
def warningLine (warning : Warning) : List StyledPiece :=
  [plain "    [",
   styled .dimmed warning.lineList,
   plain "]:",
   styled .bold warning.context,
   plain (" " ++ warning.message ++ " ("),
   styled .yellow warning.smellType,
   plain ")\n"]

/-- Whether a warning starts a group: the path of its source is another one than before. -/
def startsGroup (before : Option Path) (warning : Warning) : Bool :=
  match before with
  | none => true
  | some path => !path.same warning.source

/-- The lines of warnings, with the source before each group of warnings on it. -/
def warningLines (before : Option Path) : List Warning → List StyledPiece
  | [] => []
  | warning :: rest =>
      (if startsGroup before warning then heading warning.source else []) ++
        warningLine warning ++ warningLines (some warning.source) rest

def summaryRow (name : String) (count : Nat) : StyledPiece :=
  plain ("    " ++ padRight 24 name ++ " " ++ toString count ++ "\n")

/-- The lines after the warnings. -/
def summary (report : Report) : List StyledPiece :=
  [styled .boldUnderlined "  Summary", plain "\n"] ++
    (report.countsBySmellType.entries.map fun e => summaryRow e.1 e.2) ++
    [summaryRow "Total" report.totalWarnings, plain "\n"]

/-- The pieces of the text of a report. -/
def pieces (report : Report) (quiet : Bool) : List StyledPiece :=
  (if quiet then [] else report.banner) ++
    (if report.warnings.isEmpty then
      if quiet then [] else allClear
    else
      warningLines none report.warnings ++ [plain "\n"] ++
        if quiet then [] else report.summary)

def text (report : Report) (quiet colors : Bool) : String :=
  renderPieces colors (report.pieces quiet)

/-- The report as JSON on many lines, and a line end. -/
def json (report : Report) : String :=
  report.toJson.pretty ++ "\n"

end Report
end CodeSmells
