import CodeSmells.Command.Arguments
import CodeSmells.Command.Outcome
import CodeSmells.Detector.BooleanParameter
import CodeSmells.Detector.Registry
import CodeSmells.Files.Discovery
import CodeSmells.Files.Load
import CodeSmells.Report.Text
import CodeSmells.Text.Lowercase

/-!
# The command `analyze`

An analysis loads the configuration, finds the dumps, loads their contexts,
leaves out those whose source is suppressed, examines the others with the
selected detectors, and writes a report.  The first step that fails ends it.
-/

namespace CodeSmells
namespace Analyze

def record (level : LogLevel) (text : String) : Notice :=
  .log ⟨level, "smellguard::commands::analyze", text⟩

def detectorRecord (level : LogLevel) (text : String) : Notice :=
  .log ⟨level, "smellguard::detector::registry", text⟩

/-- The detectors that a configuration may name. -/
def knownDetectors : List String :=
  SmellType.builtIn.map SmellType.name

/-- A warning for each detector that is not known. -/
def unknownDetectorNotices (config : Config) : List Notice :=
  (config.unknownDetectors knownDetectors).map fun name =>
    record .warn ("Config entry for unknown detector '" ++ logText name ++ "' is ignored")

/-- What has been loaded. -/
def loadedNotice (files contexts suppressed : Nat) : Notice :=
  record .debug ("loaded contexts files=" ++ toString files ++ " contexts=" ++
    toString contexts ++ " suppressed=" ++ toString suppressed)

/-- What is about to be examined. -/
def progressNotice (contexts files : Nat) : Notice :=
  .progress ("Examining " ++ toString contexts ++ " contexts from " ++ toString files ++
    " files...\n")

/-- The detectors that are built. -/
def constructionNotices (smellTypes : List SmellType) (config : Config) : List Notice :=
  smellTypes.map fun smellType =>
    detectorRecord .debug ("constructing detector smell_type=" ++
      Text.showQuoted smellType.name ++ " enabled=" ++
      toString (config.settingsFor smellType.name).enabled)

/-- The runs of detectors up to the first that fails. -/
def runNotices : List (Detector × Context) → List Notice
  | [] => []
  | (detector, context) :: rest =>
      detectorRecord .trace ("running detector smell_type=" ++
        Text.showQuoted detector.smellType ++ " context=" ++ context.fullName) ::
        match detector.run context with
        | .ok _ => runNotices rest
        | .error _ => []

/-- The runs of detectors that contexts call for. -/
def runs (registry : Registry) (contexts : List Context) : List (Detector × Context) :=
  contexts.flatMap fun context =>
    (registry.detectorsFor context.kind).map fun detector => (detector, context)

/-- The format of the report: the one asked for, else the configured one, else text. -/
def resolveFormat (asked : Option OutputFormat) (config : Config) : OutputFormat × List Notice :=
  match asked with
  | some format => (format, [])
  | none =>
      let name := Text.lowercase config.outputFormat
      match OutputFormat.ofName? name with
      | some format => (format, [])
      | none =>
          (.text, [record .warn ("Unknown output_format '" ++ logText name ++
            "' in config, using text")])

/-- The contexts of dumps in order, or the first failure. -/
def loadAll (tree : FileTree) (paths : List Path) : Except Failure (List Context) :=
  (paths.mapM (Context.load tree)).map List.flatten

/-- The text of a report in a format. -/
def reportText (request : AnalyzeRequest) (format : OutputFormat) (colors : Bool)
    (report : Report) : String :=
  match format with
  | .json => report.json
  | .text => report.text request.quiet (colors && !request.noColor)

/-- The success of an analysis; warnings make the exit status 1. -/
def success (request : AnalyzeRequest) (format : OutputFormat) (colors : Bool)
    (report : Report) : Success :=
  ⟨reportText request format colors report, if report.totalWarnings = 0 then 0 else 1⟩

def configPath (request : AnalyzeRequest) : Path :=
  request.config.getD ⟨CommandName.defaultConfigPath⟩

/-- Examine contexts and write the report. -/
def examine (request : AnalyzeRequest) (colors : Bool) (config : Config)
    (contexts : List Context) : Course :=
  let smellTypes := SmellType.eligible request.smellTypes
  let registry := Registry.ofConfig smellTypes config
  let notices := constructionNotices smellTypes config ++ runNotices (runs registry contexts)
  match registry.examineAll contexts with
  | .error failure => ⟨notices, .error (.failed failure)⟩
  | .ok warnings =>
      let (format, formatNotices) := resolveFormat request.format config
      let report := Report.ofWarnings contexts.length warnings
      ⟨notices ++ formatNotices, .ok (success request format colors report)⟩

/-- The course of an analysis once the configuration and the contexts are loaded. -/
def examineLoaded (request : AnalyzeRequest) (colors : Bool) (config : Config)
    (files : Nat) (loaded : List Context) : Course :=
  let kept := loaded.filter fun context => !config.suppresses context.source
  let course := examine request colors config kept
  let notices :=
    loadedNotice files kept.length (loaded.length - kept.length) ::
      (if request.quiet then [] else [progressNotice kept.length files])
  ⟨notices ++ course.notices, course.result⟩

/-- The course of an analysis. -/
def course (tree : FileTree) (request : AnalyzeRequest) (colors : Bool) : Course :=
  match Config.load tree (configPath request) with
  | .error failure => ⟨[], .error (.failed failure)⟩
  | .ok config =>
      let unknown := unknownDetectorNotices config
      match tree.discover request.path with
      | .error error => ⟨unknown, .error (.unwalkable request.path error)⟩
      | .ok paths =>
          match loadAll tree paths with
          | .error failure => ⟨unknown, .error (.failed failure)⟩
          | .ok loaded =>
              let rest := examineLoaded request colors config paths.length loaded
              ⟨unknown ++ rest.notices, rest.result⟩

end Analyze
end CodeSmells
