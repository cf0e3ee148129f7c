import CodeSmells.Command.Analyze
import CodeSmells.Command.Help
import CodeSmells.Command.Init
import CodeSmells.Command.List

/-!
# Running command lines

`Command.run` gives the outcome of a command line on files.  A command line that
is wrong has exit status 2 and changes nothing.
-/

namespace CodeSmells

/-- What the surroundings of the program decide. -/
structure Surroundings where
  colors : Bool
  /-- The setting of the log. -/
  log : Option String
deriving DecidableEq, Repr

namespace Surroundings

/-- A switch is on unless it is `0`. -/
def isOn (setting : String) : Bool :=
  setting != "0"

/--
Whether there are colors.  A switch that forces them comes first, one that
forbids them second; otherwise a terminal has them unless it is told not to.
-/
def decideColors (force forbid allow : Option String) (terminal : Bool) : Bool :=
  if (force.map isOn).getD false then true
  else if forbid.isSome then false
  else terminal && (allow.map isOn).getD true

end Surroundings

namespace Command

/-- The text for the version. -/
def versionText : String :=
  "smellguard 0.1.0\n"

/-- The outcome of what a command line asks for. -/
def runRequest (surroundings : Surroundings) (files : FileTree) : Request → Outcome
  | .analyze request =>
      (Analyze.course files request surroundings.colors).outcome
        (.ofSetting surroundings.log) files
  | .list => Listing.course.outcome (.ofSetting surroundings.log) files
  | .init path force =>
      let (course, after) := Init.course files path force
      course.outcome (.ofSetting surroundings.log) after
  | .help topic => ⟨0, Help.text topic, "", files⟩
  | .version => ⟨0, versionText, "", files⟩

/-- The outcome of a command line. -/
def run (surroundings : Surroundings) (files : FileTree) (arguments : List String) : Outcome :=
  match Request.ofArguments? arguments with
  | some request => runRequest surroundings files request
  | none => ⟨2, "", Help.usageError, files⟩

end Command
end CodeSmells
