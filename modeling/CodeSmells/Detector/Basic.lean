import CodeSmells.Context.Basic
import CodeSmells.Failure
import CodeSmells.Warning

/-!
# Detectors

A detector looks at one context and finds smells in it.  `Detector.run` does so
only when nothing says otherwise: the detector is enabled and applies to the
kind of the context, the context does not disable it, and its settings do not
exclude the context.

A `SmellType` describes a detector and builds one from settings.
-/

namespace CodeSmells

/-- A detector with its settings. -/
structure Detector where
  /-- The name that configurations and warnings use. -/
  smellType : String
  description : String
  /-- The kinds of contexts that it looks at. -/
  kinds : List Kind
  settings : DetectorSettings
  sniff : Context → Except Failure (List Warning)

namespace Detector

/-- The kinds that a detector looks at unless it says otherwise. -/
def defaultKinds : List Kind :=
  [.method, .singletonMethod]

def enabled (detector : Detector) : Bool :=
  detector.settings.enabled

def appliesTo (detector : Detector) (kind : Kind) : Bool :=
  detector.kinds.contains kind

/-- Whether the detector looks at a context. -/
def admits (detector : Detector) (context : Context) : Bool :=
  detector.enabled && detector.appliesTo context.kind &&
    !context.disables detector.smellType && !context.fits detector.settings.exclude

/-- The smells of a context, if the detector looks at it. -/
def run (detector : Detector) (context : Context) : Except Failure (List Warning) :=
  if detector.admits context then detector.sniff context else .ok []

end Detector

/-- A warning on a context, in the name of a detector. -/
def Context.warning (context : Context) (smellType : String) (lines : List Nat)
    (message : String) (parameters : NameMap String) : Warning :=
  { smellType
    context := context.fullName
    source := context.source
    lines
    message
    parameters }

/-- The description of a detector, and how it is built. -/
structure SmellType where
  name : String
  description : String
  build : DetectorSettings → Detector

namespace SmellType

/-- Smell types are told apart by their names. -/
def same (a b : SmellType) : Bool :=
  a.name == b.name

/-- The text of a smell type in messages. -/
def display (smellType : SmellType) : String :=
  "SmellType \x7b name: " ++ Text.showQuoted smellType.name ++ " \x7d"

/-- Smell types in byte order of their names; those of one name keep their places. -/
def sort (smellTypes : List SmellType) : List SmellType :=
  smellTypes.mergeSort fun a b => decide (a.name ≤ b.name)

/-- The smell types that a list names; the empty list names all. -/
def select (smellTypes : List SmellType) (names : List String) : List SmellType :=
  if names.isEmpty then smellTypes
  else smellTypes.filter fun smellType => names.contains smellType.name

end SmellType

end CodeSmells
