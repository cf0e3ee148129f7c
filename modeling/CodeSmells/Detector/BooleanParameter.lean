import CodeSmells.Detector.Basic

/-!
# Boolean parameters

A parameter that defaults to `true` or `false` lets the caller choose the path
that a method takes.  Only the two literals count, not expressions that happen
to be true or false.
-/

namespace CodeSmells
namespace BooleanParameter

def name : String :=
  "BooleanParameter"

def description : String :=
  "Detects parameters defaulting to a boolean literal"

/-- The warning on one default. -/
def warningFor (context : Context) (assignment : DefaultAssignment) : Warning :=
  context.warning name [context.line]
    ("has boolean parameter '" ++ assignment.parameter ++ "'")
    (NameMap.empty.insert "parameter" assignment.parameter)

/-- The warning on one default, whose parameter must have a name. -/
def examine (context : Context) (assignment : DefaultAssignment) : Except Failure Warning :=
  if assignment.parameter.isEmpty then
    .error (.malformedContext name context.fullName
      "default assignment without a parameter name")
  else .ok (warningFor context assignment)

/-- One warning for each default that is a boolean literal. -/
def sniff (context : Context) : Except Failure (List Warning) :=
  (context.defaultAssignments.filter fun assignment => assignment.value.isBooleanLiteral).mapM
    (examine context)

/-- The detector with its settings. -/
def detector (settings : DetectorSettings) : Detector :=
  ⟨name, description, Detector.defaultKinds, settings, sniff⟩

def smellType : SmellType :=
  ⟨name, description, detector⟩

end BooleanParameter

namespace SmellType

/-- All smell types of the library. -/
def builtIn : List SmellType :=
  sort [BooleanParameter.smellType]

/-- The smell types of the library that a list names. -/
def eligible (names : List String) : List SmellType :=
  select builtIn names

end SmellType

end CodeSmells
