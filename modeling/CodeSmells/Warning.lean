import CodeSmells.Path
import CodeSmells.Text.NameMap
import CodeSmells.Json.Printer

/-!
# Warnings

A warning is one smell found in one context.  Warnings have a total order: by
source path, first line (none before any), smell type, context, message, lines
and parameters.  Two warnings are `same` when they differ at most in the
spelling of the source.
-/

namespace CodeSmells

/-- One smell found in a context. -/
structure Warning where
  smellType : String
  context : String
  source : Path
  lines : List Nat
  message : String
  /-- Details by name. -/
  parameters : NameMap String
deriving DecidableEq

namespace Warning

def firstLine? (warning : Warning) : Option Nat :=
  warning.lines.min?

/-- Names and values in turn. -/
def detailOrder : List (String × String) → List (String × String) → Ordering :=
  List.compareLex (compareLex (compareOn Prod.fst) (compareOn Prod.snd))

/-- The order of warnings in a report. -/
def order : Warning → Warning → Ordering :=
  compareLex (compareOn (·.source.parts)) <|
  compareLex (compareOn firstLine?) <|
  compareLex (compareOn smellType) <|
  compareLex (compareOn context) <|
  compareLex (compareOn message) <|
  compareLex (compareOn lines) <|
  fun a b => detailOrder a.parameters.entries b.parameters.entries

/-- Equality up to the spelling of the source. -/
def same (a b : Warning) : Bool :=
  a.smellType == b.smellType && a.context == b.context && a.source.same b.source &&
    a.lines == b.lines && a.message == b.message && a.parameters == b.parameters

/-- Line numbers with commas between them. -/
def lineList (warning : Warning) : String :=
  String.intercalate ", " (warning.lines.map toString)

/-- The text of a warning on one line. -/
def text (warning : Warning) : String :=
  "[" ++ warning.lineList ++ "]:" ++ warning.context ++ " " ++ warning.message ++
    " (" ++ warning.smellType ++ ")"

def toJson (warning : Warning) : Json :=
  .object
    [("smell_type", .text warning.smellType),
     ("context", .text warning.context),
     ("source", .text warning.source.text),
     ("lines", .array (warning.lines.map Json.natural)),
     ("message", .text warning.message),
     ("parameters", Json.ofMap Json.text warning.parameters.entries)]

end Warning

end CodeSmells
