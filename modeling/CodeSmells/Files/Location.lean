import CodeSmells.Path

/-!
# Locations of files

A `FileName` can name an entry of a directory.  A `Location` is the names that
lead from the root to a place.
-/

namespace CodeSmells

/-- The longest name in bytes. -/
def FileName.maxBytes : Nat := 255

/-- Whether a text can name an entry: dots and separators belong to paths. -/
def FileName.isValid (text : String) : Bool :=
  text != "" && text != "." && text != ".." && !text.toList.contains '/' &&
    decide (text.utf8ByteSize ≤ maxBytes)

/-- The name of an entry of a directory. -/
structure FileName where
  text : String
  valid : FileName.isValid text = true
deriving DecidableEq

namespace FileName

/-- The name with a text, if the text can be one. -/
def ofText? (text : String) : Option FileName :=
  if h : isValid text = true then some ⟨text, h⟩ else none

theorem ofText?_text (name : FileName) : ofText? name.text = some name := by
  rw [ofText?, dif_pos name.valid]

end FileName

/-- The names that lead from the root to a place. -/
abbrev Location := List FileName

/-- The location that a text without dots leads to. -/
def Location.ofText (text : String) : Location :=
  (text.splitOn "/").filterMap FileName.ofText?

def Location.text (location : Location) : String :=
  String.intercalate "/" (location.map FileName.text)

end CodeSmells
