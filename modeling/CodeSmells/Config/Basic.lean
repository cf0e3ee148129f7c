import CodeSmells.Path
import CodeSmells.Settings
import CodeSmells.Text.NameMap

/-!
# Configurations

A configuration fixes the output format, an entry for each detector it names,
and the sources that are left out.
-/

namespace CodeSmells

/-- The configuration of an analysis. -/
structure Config where
  outputFormat : String
  detectors : NameMap DetectorEntry
  /-- Globs for sources that are left out. -/
  suppressedFiles : List String

namespace Config

/-- Text output, no entries, nothing left out. -/
def default : Config :=
  ⟨"text", NameMap.empty, []⟩

def settingsFor (config : Config) (name : String) : DetectorSettings :=
  match config.detectors.get? name with
  | some entry => .ofEntry entry
  | none => .default

/-- The detectors that have an entry and are not known, in order. -/
def unknownDetectors (config : Config) (known : List String) : List String :=
  config.detectors.names.filter fun name => !known.contains name

/-- Whether a source is left out. -/
def suppresses (config : Config) (source : Path) : Bool :=
  config.suppressedFiles.any fun glob => Glob.fits glob source.text

/-- The lines of a configuration to start from. -/
def defaultLines : List String :=
  ["# smellguard configuration",
   "",
   "[global]",
   "# Output format: \"text\", \"json\"",
   "output_format = \"text\"",
   "",
   "# Per-detector overrides, keyed by smell type",
   "# [detectors.BooleanParameter]",
   "# enabled = false",
   "# exclude = [\"Cli#run\", \"Legacy::*\"]",
   "",
   "[suppressions]",
   "# Glob patterns for source files to skip entirely",
   "files = [\"spec/**\", \"test/**\"]"]

/-- The text of a configuration to start from. -/
def defaultText : String :=
  String.join (defaultLines.map fun line => line ++ "\n")

end Config

end CodeSmells
