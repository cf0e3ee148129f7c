import CodeSmells.Config.Read
import CodeSmells.Context.Dump
import CodeSmells.Failure

/-!
# Loading from files
-/

namespace CodeSmells

/-- The configuration in a file; without the file, the default one. -/
def Config.load (tree : FileTree) (path : Path) : Except Failure Config :=
  if tree.present path then
    match tree.readText path with
    | .error error => .error (.unreadableConfig path error)
    | .ok text => (Config.parse text).mapError (.invalidConfig path text)
  else .ok Config.default

/-- The contexts in a file. -/
def Context.load (tree : FileTree) (path : Path) : Except Failure (List Context) :=
  match tree.readText path with
  | .error error => .error (.unreadableContexts path error)
  | .ok text => (Context.parseDump text).mapError (.invalidContexts path text)

end CodeSmells
