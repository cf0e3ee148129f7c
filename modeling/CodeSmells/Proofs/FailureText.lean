import CodeSmells.Command.Outcome
import CodeSmells.Proofs.Text.Separated

/-!
# What is shown of a failure

A failure is shown in full: what failed, with the path that it is about, and then each
cause, indented, with its other lines below the first.

**Results.**

* `text_eq_told`: the text of a failure.
-/

namespace CodeSmells

/-- The words of the system for an error. -/
def FileError.words : FileError → String
  | .notFound => "No such file or directory (os error 2)"
  | .denied => "Permission denied (os error 13)"
  | .notDirectory => "Not a directory (os error 20)"
  | .isDirectory => "Is a directory (os error 21)"
  | .nameTooLong => "File name too long (os error 36)"
  | .tooManyLinks => "Too many levels of symbolic links (os error 40)"
  | .notText => "stream did not contain valid UTF-8"

namespace CommandFailure

/-- A failure as it is shown. -/
def told : CommandFailure → String
  | .failed (.unreadableConfig path error) =>
      "Error: Failed to read config " ++ path.text ++ ": " ++ error.words ++
        "\n\nCaused by:\n    " ++ error.words ++ "\n"
  | .failed (.invalidConfig path text refusal) =>
      "Error: Invalid config " ++ path.text ++ ": " ++ refusal.message text ++
        "\n\nCaused by:\n    " ++
        String.intercalate "\n    " ((refusal.message text).splitOn "\n") ++ "\n"
  | .failed (.unreadableContexts path error) =>
      "Error: Failed to read contexts from " ++ path.text ++ ": " ++ error.words ++
        "\n\nCaused by:\n    " ++ error.words ++ "\n"
  | .failed (.invalidContexts path text refusal) =>
      "Error: Invalid context file " ++ path.text ++ ": " ++ refusal.message text ++
        "\n\nCaused by:\n    " ++
        String.intercalate "\n    " ((refusal.message text).splitOn "\n") ++ "\n"
  | .failed (.malformedContext detector context reason) =>
      "Error: " ++ detector ++ " cannot examine `" ++ context ++ "`: " ++ reason ++ "\n"
  | .unwalkable path error =>
      "Error: Failed to walk " ++ path.text ++ "\n\nCaused by:\n    0: " ++
        String.intercalate "\n       "
          (("IO error for operation on " ++ error.place.text ++ ": " ++
            error.error.words).splitOn "\n") ++
        "\n    1: " ++ error.error.words ++ "\n"
  | .unwritable path error =>
      "Error: Failed to write " ++ path.text ++ "\n\nCaused by:\n    " ++ error.words ++ "\n"

theorem message_eq_words (error : FileError) : error.message = error.words := by
  cases error <;> rfl

/-- An error of the system has one line. -/
theorem splitOn_words (error : FileError) : error.words.splitOn "\n" = [error.words] := by
  refine Text.splitOn_of_notMem (c := '\n') rfl rfl (by decide) ?_
  cases error <;> decide

theorem indent_words (first later : String) (error : FileError) :
    indent first later error.words = first ++ error.words := by
  rw [indent, splitOn_words]
  rfl

/-- One cause, on lines of its own. -/
theorem causeLines_singleton (cause : String) :
    causeLines [cause] =
      "\n\nCaused by:\n    " ++ String.intercalate "\n    " (cause.splitOn "\n") := by
  rw [causeLines, indent, ← String.append_assoc]
  simp only [String.reduceAppend]

theorem causeLines_words (error : FileError) :
    causeLines [error.words] = "\n\nCaused by:\n    " ++ error.words := by
  rw [causeLines_singleton, splitOn_words]
  rfl

/-- The causes of a failure to walk: the operation that failed, and its error. -/
theorem causeLines_walk (operation : String) (error : FileError) :
    causeLines [operation, error.words] =
      "\n\nCaused by:\n    0: " ++ String.intercalate "\n       " (operation.splitOn "\n") ++
        "\n    1: " ++ error.words := by
  have hfirst : causeNumber 0 = "    0: " := by decide +kernel
  have hsecond : causeNumber 1 = "    1: " := by decide +kernel
  have hcauses : causeLines [operation, error.words] = "\n\nCaused by:" ++
      (("\n" ++ indent (causeNumber 0) "       " operation) ++
        (("\n" ++ indent (causeNumber 1) "       " error.words) ++ "")) := by
    simp only [causeLines, List.zipIdx_cons, List.zipIdx_nil, List.map_cons, List.map_nil,
      String.join_cons, String.join_nil]
  have hlater : "\n" ++ ("    1: " ++ error.words) = "\n    1: " ++ error.words := by
    simp only [← String.append_assoc, String.reduceAppend]
  rw [hcauses, hfirst, hsecond, indent_words, hlater, indent, String.append_empty]
  simp only [← String.append_assoc, String.reduceAppend]

/-- What is shown of a failure is what is told of it. -/
theorem text_eq_told (failure : CommandFailure) : failure.text = failure.told := by
  have hread (path : Path) (error : FileError) (what : String) :
      "Error: " ++ (what ++ path.text ++ ": " ++ error.message) ++ causeLines [error.message] ++
        "\n" = "Error: " ++ what ++ path.text ++ ": " ++ error.words ++
          "\n\nCaused by:\n    " ++ error.words ++ "\n" := by
    rw [message_eq_words, causeLines_words]
    simp only [← String.append_assoc]
  have hinvalid (path : Path) (message what : String) :
      "Error: " ++ (what ++ path.text ++ ": " ++ message) ++ causeLines [message] ++ "\n" =
        "Error: " ++ what ++ path.text ++ ": " ++ message ++ "\n\nCaused by:\n    " ++
          String.intercalate "\n    " (message.splitOn "\n") ++ "\n" := by
    rw [causeLines_singleton]
    simp only [← String.append_assoc]
  cases failure with
  | failed failure =>
      cases failure with
      | unreadableConfig path error => exact hread path error "Failed to read config "
      | unreadableContexts path error => exact hread path error "Failed to read contexts from "
      | invalidConfig path content refusal =>
          exact hinvalid path (refusal.message content) "Invalid config "
      | invalidContexts path content refusal =>
          exact hinvalid path (refusal.message content) "Invalid context file "
      | malformedContext detector context reason =>
          have htext : (failed (.malformedContext detector context reason)).text = "Error: " ++
              (detector ++ " cannot examine `" ++ context ++ "`: " ++ reason) ++ "" ++ "\n" := rfl
          rw [htext, String.append_empty]
          simp only [← String.append_assoc]
          rfl
  | unwalkable path error =>
      have htext : (unwalkable path error).text = "Error: " ++ ("Failed to walk " ++ path.text) ++
          causeLines ["IO error for operation on " ++ error.place.text ++ ": " ++
            error.error.message, error.error.message] ++ "\n" := rfl
      rw [htext, message_eq_words, causeLines_walk]
      simp only [← String.append_assoc, String.reduceAppend]
      rfl
  | unwritable path error =>
      have htext : (unwritable path error).text = "Error: " ++ ("Failed to write " ++ path.text) ++
          causeLines [error.message] ++ "\n" := rfl
      rw [htext, message_eq_words, causeLines_words]
      simp only [← String.append_assoc, String.reduceAppend]
      rfl

end CommandFailure
end CodeSmells
