import CodeSmells.Number.Shortest
import CodeSmells.Text.Quoted

/-!
# Values of the wrong shape

What a reader of structured text found in the place of what it expected.
-/

namespace CodeSmells

/-- A value as a message names it. -/
inductive Found where
  | null
  | bool (value : Bool)
  | integer (value : Int)
  | real (value : Binary64)
  | text (value : String)
  | sequence
  | map
deriving DecidableEq, Repr

/-- The words for a value; `style` lays out fractions. -/
def Found.words (style : DecimalStyle) : Found → String
  | null => "null"
  | bool value => "boolean `" ++ toString value ++ "`"
  | integer value => "integer `" ++ toString value ++ "`"
  | real value => "floating point `" ++ style.text value ++ "`"
  | text value => "string " ++ Text.showQuoted value
  | sequence => "sequence"
  | map => "map"

/-- What a reader expected. -/
inductive Expected where
  | wholeNumber
  | string
  | path
  | boolean
  | sequence
  | map
  | nothing
  | variantName
  | expression
  /-- A structure with this name. -/
  | record (name : String)
  /-- A structure with this name, written as so many items. -/
  | recordItems (name : String) (count : Nat)
  /-- A sequence of so many items. -/
  | items (count : Nat)
deriving DecidableEq, Repr

/-- The words for an expectation. -/
def Expected.words : Expected → String
  | wholeNumber => "usize"
  | string => "a string"
  | path => "path string"
  | boolean => "a boolean"
  | sequence => "a sequence"
  | map => "a map"
  | nothing => "unit"
  | variantName => "variant identifier"
  | expression => "internally tagged enum Expression"
  | record name => "struct " ++ name
  | recordItems name count => "struct " ++ name ++ " with " ++ toString count ++ " elements"
  | items count =>
      toString count ++ (if count = 1 then " element in sequence" else " elements in sequence")

/-- The message on a value of the wrong type. -/
def mismatchMessage (style : DecimalStyle) (found : Found) (expected : Expected) : String :=
  "invalid type: " ++ found.words style ++ ", expected " ++ expected.words

end CodeSmells
