import CodeSmells.Config.Basic
import CodeSmells.Toml.Read
import CodeSmells.Toml.Scan

/-!
# Reading configurations

A configuration is a TOML document.  Keys that mean nothing are ignored
wherever they stand; of two items with the wrong type the first is refused.
-/

namespace CodeSmells
namespace Config

open Toml

/-- What is said on one detector. -/
def readEntry : Reader DetectorEntry :=
  readRecord "DetectorConfig" .blank
    [("enabled", fun draft span item => (readBool span item).map fun value =>
        { draft with enabled := some value }),
     ("exclude", fun draft span item => (readList readText span item).map fun value =>
        { draft with exclude := value })]

/-- The name of the one field of a date or a time. -/
def momentField : String :=
  "$__toml_private_datetime"

/-- Entries by the names of the detectors. -/
def readEntries : Reader (NameMap DetectorEntry)
  | span, item =>
      match item.entries?, item with
      | some entries, _ =>
          foldEntries (fun map name => some fun span item =>
            (readEntry span item).map fun entry => map.insert name entry) NameMap.empty entries
      | none, .scalar (.moment value) _ =>
          (readEntry span (.scalar (.text value) span)).map fun entry =>
            NameMap.empty.insert momentField entry
      | none, item => refuse .map span item

/-- The output format. -/
def readGlobal : Reader String :=
  readRecord "GlobalConfig" Config.default.outputFormat
    [("output_format", fun _ span item => readText span item)]

/-- The globs for sources that are left out. -/
def readSuppressions : Reader (List String) :=
  readRecord "SuppressionConfig" []
    [("files", fun _ span item => readList readText span item)]

/-- The configuration that the entries of a document give. -/
def ofEntries (entries : Entries) : Reading Config :=
  foldEntries (fun (draft : Config) name =>
    if name = "global" then some fun span item =>
      (readGlobal span item).map fun value => { draft with outputFormat := value }
    else if name = "detectors" then some fun span item =>
      (readEntries span item).map fun value => { draft with detectors := value }
    else if name = "suppressions" then some fun span item =>
      (readSuppressions span item).map fun value => { draft with suppressedFiles := value }
    else none) Config.default entries

def parse (text : String) : Reading Config :=
  match entries? text with
  | some entries => ofEntries entries
  | none => .error .notToml

end Config
end CodeSmells
