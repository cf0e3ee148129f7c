import CodeSmells.Context.Expression
import CodeSmells.Context.Kind
import CodeSmells.Path
import CodeSmells.Settings

/-!
# Contexts

A context is one unit of a program that can be examined: its kind, name and
place, the parameters that have a default, and what its own text says on
detectors.
-/

namespace CodeSmells

/-- A parameter with its default. -/
structure DefaultAssignment where
  parameter : String
  value : Expression
deriving Inhabited

/-- A unit to examine. -/
structure Context where
  kind : Kind
  fullName : String
  source : Path
  line : Nat
  /-- In the order of their declaration. -/
  defaultAssignments : List DefaultAssignment
  /-- What the context itself says on detectors, by their names. -/
  overrides : NameMap DetectorEntry

namespace Context

/-- A context without source, defaults and overrides. -/
def bare (kind : Kind) (fullName : String) (line : Nat) : Context :=
  ⟨kind, fullName, ⟨""⟩, line, [], NameMap.empty⟩

def withSource (context : Context) (source : Path) : Context :=
  { context with source }

/-- The context with one more default. -/
def withDefault (context : Context) (parameter : String) (value : Expression) : Context :=
  { context with defaultAssignments := context.defaultAssignments ++ [⟨parameter, value⟩] }

/-- The context with an override in place of an older one. -/
def withOverride (context : Context) (smellType : String) (entry : DetectorEntry) : Context :=
  { context with overrides := context.overrides.insert smellType entry }

/-- Whether one of the patterns fits the name of the context. -/
def fits (context : Context) (patterns : List String) : Bool :=
  NamePattern.anyFits patterns context.fullName

/-- Whether the override for a detector switches it off or excludes the context. -/
def disables (context : Context) (smellType : String) : Bool :=
  match context.overrides.get? smellType with
  | none => false
  | some entry => entry.enabled == some false || context.fits entry.exclude

end Context

end CodeSmells
