import CodeSmells.Command.Log
import CodeSmells.Failure
import CodeSmells.Files.Discovery

/-!
# Outcomes of commands

A command leaves notices, then succeeds with a text and an exit status, or fails.
`Outcome` is what can be seen of it: the exit status, the text on both streams,
and the files.
-/

namespace CodeSmells

/-- Why a command fails. -/
inductive CommandFailure where
  | failed (failure : Failure)
  | unwalkable (path : Path) (error : WalkError)
  | unwritable (path : Path) (error : FileError)
deriving DecidableEq

namespace CommandFailure

def message : CommandFailure → String
  | failed failure => failure.message
  | unwalkable path _ => "Failed to walk " ++ path.text
  | unwritable path _ => "Failed to write " ++ path.text

/-- The messages of the causes, the nearest first. -/
def causes : CommandFailure → List String
  | failed failure => failure.source?.toList
  | unwalkable _ ⟨place, error⟩ =>
      ["IO error for operation on " ++ place.text ++ ": " ++ error.message, error.message]
  | unwritable _ error => [error.message]

/-- A text after `first`, with `later` before each of its other lines. -/
def indent (first later text : String) : String :=
  first ++ String.intercalate ("\n" ++ later) (text.splitOn "\n")

/-- A number before a cause. -/
def causeNumber (n : Nat) : String :=
  let digits := toString n
  String.ofList (List.replicate (5 - digits.length) ' ') ++ digits ++ ": "

/-- The causes, numbered if there are several. -/
def causeLines : List String → String
  | [] => ""
  | [cause] => "\n\nCaused by:\n" ++ indent "    " "    " cause
  | causes =>
      "\n\nCaused by:" ++ String.join
        (causes.zipIdx.map fun (cause, n) => "\n" ++ indent (causeNumber n) "       " cause)

/-- What is shown of a failure. -/
def text (failure : CommandFailure) : String :=
  "Error: " ++ failure.message ++ causeLines failure.causes ++ "\n"

end CommandFailure

/-- What a command says beside its result. -/
inductive Notice where
  | log (record : LogRecord)
  | progress (text : String)
deriving DecidableEq, Repr

/-- The text of a notice; a record is shown only if the filter shows it. -/
def Notice.text (filter : LogFilter) : Notice → String
  | log record => if filter.shows record then record.line else ""
  | progress text => text

/-- What a command succeeds with. -/
structure Success where
  stdout : String
  code : Nat
deriving DecidableEq, Repr

/-- The course of a command. -/
structure Course where
  notices : List Notice
  result : Except CommandFailure Success

/-- What can be seen of a command. -/
structure Outcome where
  code : Nat
  stdout : String
  stderr : String
  files : FileTree

/-- What can be seen of a course: a failure has status 1 and no text but its message. -/
def Course.outcome (course : Course) (filter : LogFilter) (files : FileTree) : Outcome :=
  let notices := String.join (course.notices.map (Notice.text filter))
  match course.result with
  | .ok success => ⟨success.code, success.stdout, notices, files⟩
  | .error failure => ⟨1, "", notices ++ failure.text, files⟩

end CodeSmells
