import CodeSmells.Command.Outcome
import CodeSmells.Config.Basic

/-!
# The command `init`

The command writes the default configuration.  What stands at the path is kept,
with a warning, unless the command is forced.
-/

namespace CodeSmells
namespace Init

/-- The warning that nothing was written. -/
def existsNotice (path : Path) : Notice :=
  .log ⟨.warn, "smellguard::commands::init",
    logText path.text ++ " already exists, pass --force to overwrite it"⟩

/-- The course of the command, and the files after it. -/
def course (tree : FileTree) (path : Path) (force : Bool) : Course × FileTree :=
  if tree.present path && !force then (⟨[existsNotice path], .ok ⟨"", 0⟩⟩, tree)
  else
    match tree.write path Config.defaultText.toUTF8 with
    | .error error => (⟨[], .error (.unwritable path error)⟩, tree)
    | .ok after => (⟨[], .ok ⟨"Created " ++ path.text ++ "\n", 0⟩⟩, after)

end Init
end CodeSmells
