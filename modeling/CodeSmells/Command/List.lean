import CodeSmells.Command.Outcome
import CodeSmells.Detector.BooleanParameter
import CodeSmells.Report.Text

/-!
# The command `list`

The command shows a table of the detectors and the kinds that they look at.
-/

namespace CodeSmells
namespace Listing

/-- A row of the table. -/
def row (name kinds description : String) : String :=
  Report.padRight 24 name ++ " " ++ Report.padRight 28 kinds ++ " " ++ description ++ "\n"

def smellTypeRow (smellType : SmellType) : String :=
  let detector := smellType.build .default
  row smellType.name (String.intercalate ", " (detector.kinds.map Kind.name))
    smellType.description

def text (smellTypes : List SmellType) : String :=
  row "Name" "Contexts" "Description" ++
    String.ofList (List.replicate 90 '-') ++ "\n" ++
    String.join (smellTypes.map smellTypeRow) ++
    "\nTotal: " ++ toString smellTypes.length ++ " detectors\n"

/-- The course of the command. -/
def course : Course :=
  ⟨[], .ok ⟨text SmellType.builtIn, 0⟩⟩

end Listing
end CodeSmells
