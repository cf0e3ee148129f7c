import CodeSmells.Json.Printer
import CodeSmells.Mismatch

/-!
# Why JSON text is refused

A `Refusal` is a cause and, once it is known, the place in the text.  A place is
a number of bytes from the start; it is shown as a line, counted from one, and
the bytes on that line.
-/

namespace CodeSmells
namespace Json

/-- The kinds of refusal. -/
inductive Category where
  | malformed
  | wrongData
  | unfinished
deriving DecidableEq, Repr

/-- What is wrong with text that is not JSON. -/
inductive Malformation where
  | endInList
  | endInObject
  | endInText
  | endInValue
  | noColon
  | noListSeparator
  | noObjectSeparator
  | badWord
  | noValue
  | badKey
  | trailingComma
  | trailingCharacters
  | badNumber
  | numberTooLarge
  | badEscape
  | badHexEscape
  | controlCharacter
  | loneSurrogate
  | unpairedSurrogate
  | tooDeep
deriving DecidableEq, Repr

namespace Malformation

def message : Malformation → String
  | endInList => "EOF while parsing a list"
  | endInObject => "EOF while parsing an object"
  | endInText => "EOF while parsing a string"
  | endInValue => "EOF while parsing a value"
  | noColon => "expected `:`"
  | noListSeparator => "expected `,` or `]`"
  | noObjectSeparator => "expected `,` or `\x7d`"
  | badWord => "expected ident"
  | noValue => "expected value"
  | badKey => "key must be a string"
  | trailingComma => "trailing comma"
  | trailingCharacters => "trailing characters"
  | badNumber => "invalid number"
  | numberTooLarge => "number out of range"
  | badEscape => "invalid escape"
  | badHexEscape => "invalid escape"
  | controlCharacter => "control character (\\u0000-\\u001F) found while parsing a string"
  | loneSurrogate => "lone leading surrogate in hex escape"
  | unpairedSurrogate => "unexpected end of hex escape"
  | tooDeep => "recursion limit exceeded"

/-- Text that stops too early is unfinished, any other fault is a malformation. -/
def category : Malformation → Category
  | endInList => .unfinished
  | endInObject => .unfinished
  | endInText => .unfinished
  | endInValue => .unfinished
  | _ => .malformed

end Malformation

/-- The causes of a refusal. -/
inductive Cause where
  | malformed (fault : Malformation)
  | wrongType (found : Found) (expected : Expected)
  | wrongValue (found : Found) (expected : Expected)
  | wrongLength (length : Nat) (expected : Expected)
  | missingField (name : String)
  | repeatedField (name : String)
  | unknownName (name : String) (known : List String)
deriving DecidableEq, Repr

namespace Cause

/-- The message without the place. -/
def message : Cause → String
  | malformed fault => fault.message
  | wrongType found expected => mismatchMessage realStyle found expected
  | wrongValue found expected =>
      "invalid value: " ++ found.words realStyle ++ ", expected " ++ expected.words
  | wrongLength length expected =>
      "invalid length " ++ toString length ++ ", expected " ++ expected.words
  | missingField name => "missing field `" ++ name ++ "`"
  | repeatedField name => "duplicate field `" ++ name ++ "`"
  | unknownName name known =>
      "unknown variant `" ++ name ++ "`, expected one of " ++
        String.intercalate ", " (known.map fun k => "`" ++ k ++ "`")

def category : Cause → Category
  | malformed fault => fault.category
  | _ => .wrongData

end Cause

/-- A refusal, with its place in bytes once that is known. -/
structure Refusal where
  cause : Cause
  place : Option Nat
deriving DecidableEq, Repr

/-- The outcome of reading a value. -/
abbrev Reading (α : Type) := Except Refusal α

/-- Refuse at a place. -/
def refuseAt {α : Type} (cause : Cause) (place : Nat) : Reading α :=
  .error ⟨cause, some place⟩

/-- Give a place to a refusal that has none. -/
def settle {α : Type} (place : Nat) : Reading α → Reading α
  | .error ⟨cause, none⟩ => .error ⟨cause, some place⟩
  | other => other

/-- The line, counted from one, and the bytes before the place on that line. -/
def lineAndColumn (text : String) (place : Nat) : Nat × Nat :=
  let before := text.toUTF8.toList.take place
  let onLine := before.reverse.takeWhile (· != 10)
  (before.count 10 + 1, onLine.length)

/-- The message with the place, if there is one. -/
def Refusal.message (text : String) (refusal : Refusal) : String :=
  match refusal.place with
  | none => refusal.cause.message
  | some place =>
      let at_ := lineAndColumn text place
      refusal.cause.message ++ " at line " ++ toString at_.1 ++ " column " ++ toString at_.2

end Json
end CodeSmells
