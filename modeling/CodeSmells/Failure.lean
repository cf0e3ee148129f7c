import CodeSmells.Files.Resolution
import CodeSmells.Json.Refusal
import CodeSmells.Toml.Refusal

/-!
# Failures

What can go wrong when a configuration or contexts are loaded or examined.
-/

namespace CodeSmells

/-- The causes of a failure; a refused text is kept, since messages point into it. -/
inductive Failure where
  | unreadableConfig (path : Path) (error : FileError)
  | invalidConfig (path : Path) (text : String) (refusal : Toml.Refusal)
  | unreadableContexts (path : Path) (error : FileError)
  | invalidContexts (path : Path) (text : String) (refusal : Json.Refusal)
  /-- A context breaks an assumption of a detector. -/
  | malformedContext (detector context reason : String)
deriving DecidableEq

namespace Failure

/-- The message of the failure that led to this one. -/
def source? : Failure → Option String
  | unreadableConfig _ error => some error.message
  | invalidConfig _ text refusal => some (refusal.message text)
  | unreadableContexts _ error => some error.message
  | invalidContexts _ text refusal => some (refusal.message text)
  | malformedContext _ _ _ => none

def message (failure : Failure) : String :=
  let source := failure.source?.getD ""
  match failure with
  | unreadableConfig path _ => "Failed to read config " ++ path.text ++ ": " ++ source
  | invalidConfig path _ _ => "Invalid config " ++ path.text ++ ": " ++ source
  | unreadableContexts path _ => "Failed to read contexts from " ++ path.text ++ ": " ++ source
  | invalidContexts path _ _ => "Invalid context file " ++ path.text ++ ": " ++ source
  | malformedContext detector context reason =>
      detector ++ " cannot examine `" ++ context ++ "`: " ++ reason

end Failure

end CodeSmells
