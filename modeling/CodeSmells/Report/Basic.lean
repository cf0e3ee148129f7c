import CodeSmells.Warning

/-!
# Reports

A report holds the warnings of an analysis in order, and how many there are of
each smell type.
-/

namespace CodeSmells

/-- The outcome of an analysis. -/
structure Report where
  contextsExamined : Nat
  totalWarnings : Nat
  countsBySmellType : NameMap Nat
  warnings : List Warning

namespace Report

/-- Warnings in order; equal ones keep their places. -/
def sortWarnings (warnings : List Warning) : List Warning :=
  warnings.mergeSort fun a b => (Warning.order a b).isLE

/-- Add one to the count of a name. -/
def countName (counts : NameMap Nat) (name : String) : NameMap Nat :=
  counts.insert name ((counts.get? name).getD 0 + 1)

/-- How often each smell type occurs. -/
def countSmellTypes (warnings : List Warning) : NameMap Nat :=
  warnings.foldl (fun counts warning => countName counts warning.smellType) NameMap.empty

/-- The report on warnings found in so many contexts. -/
def ofWarnings (contextsExamined : Nat) (warnings : List Warning) : Report :=
  let sorted := sortWarnings warnings
  { contextsExamined
    totalWarnings := sorted.length
    countsBySmellType := countSmellTypes sorted
    warnings := sorted }

def toJson (report : Report) : Json :=
  .object
    [("contexts_examined", .natural report.contextsExamined),
     ("total_warnings", .natural report.totalWarnings),
     ("warnings_by_smell_type", Json.ofMap Json.natural report.countsBySmellType.entries),
     ("warnings", .array (report.warnings.map Warning.toJson))]

end Report

end CodeSmells
