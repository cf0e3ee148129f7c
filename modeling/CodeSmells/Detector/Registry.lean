import CodeSmells.Config.Basic
import CodeSmells.Detector.Basic

/-!
# Registries

A registry holds one detector for each smell type, with the settings that a
configuration gives it.  It examines a context with the detectors that are
enabled and apply to its kind, and stops at the first failure.
-/

namespace CodeSmells

/-- Detectors in the order in which they run. -/
structure Registry where
  detectors : List Detector

namespace Registry

/-- One detector for each smell type. -/
def ofConfig (smellTypes : List SmellType) (config : Config) : Registry :=
  ⟨smellTypes.map fun smellType => smellType.build (config.settingsFor smellType.name)⟩

def names (registry : Registry) : List String :=
  registry.detectors.map Detector.smellType

/-- The enabled detectors that apply to a kind. -/
def detectorsFor (registry : Registry) (kind : Kind) : List Detector :=
  registry.detectors.filter fun detector => detector.enabled && detector.appliesTo kind

/-- The warnings of all detectors on a context, or the first failure. -/
def examine (registry : Registry) (context : Context) : Except Failure (List Warning) :=
  ((registry.detectorsFor context.kind).mapM fun (detector : Detector) => detector.run context).map
    List.flatten

/-- The warnings on all contexts, or the first failure. -/
def examineAll (registry : Registry) (contexts : List Context) :
    Except Failure (List Warning) :=
  (contexts.mapM registry.examine).map List.flatten

end Registry

end CodeSmells
