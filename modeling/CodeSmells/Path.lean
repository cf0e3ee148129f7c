/-!
# Paths

A path is a text, compared by its parts: `/` separates names, repeated and
trailing separators count once, and a `.` counts only where a relative path
starts with it.  Two spellings of one path are `same`.

**Results.**

* `Part.key_injective`: parts are equal when their keys are.
-/

namespace CodeSmells

namespace Path

/-- One part of a path. -/
inductive Part where
  | root
  | here
  | up
  | name (text : String)
deriving DecidableEq, Repr

/-- The rank of a part and its name; parts are ordered by these. -/
def Part.key : Part → Nat × String
  | root => (0, "")
  | here => (1, "")
  | up => (2, "")
  | name text => (3, text)

theorem Part.key_injective {a b : Part} (h : a.key = b.key) : a = b := by
  cases a <;> cases b <;> simp_all [key]

/-- The root comes first, then `.`, then `..`, then names in byte order. -/
instance : Ord Part where
  compare := compareLex (compareOn (·.key.1)) (compareOn (·.key.2))

/-- The texts between separators. -/
def segments : List Char → List (List Char)
  | [] => [[]]
  | '/' :: s => [] :: segments s
  | c :: s =>
      match segments s with
      | [] => [[c]]
      | first :: rest => (c :: first) :: rest

/-- The part that a segment after the first one stands for. -/
def part? (segment : List Char) : Option Part :=
  if segment = [] ∨ segment = ['.'] then none
  else if segment = ['.', '.'] then some .up
  else some (.name (String.ofList segment))

end Path

/-- A path as it was written. -/
structure Path where
  text : String
deriving DecidableEq, Repr, Inhabited

namespace Path

def parts (path : Path) : List Part :=
  match segments path.text.toList with
  | ['.'] :: rest => .here :: rest.filterMap part?
  | [] :: second :: rest => .root :: (second :: rest).filterMap part?
  | all => all.filterMap part?

/-- Whether two texts write the same path. -/
def same (a b : Path) : Bool :=
  a.parts == b.parts

/-- Paths are ordered part by part. -/
def order : Path → Path → Ordering :=
  compareOn parts

/-- The path of an entry of a directory. -/
def child (directory : Path) (name : String) : Path :=
  if directory.text.isEmpty || directory.text.endsWith "/" then ⟨directory.text ++ name⟩
  else ⟨directory.text ++ "/" ++ name⟩

/-- What follows the last dot of a name, unless the name has no dot or starts with its last one. -/
def extension? (name : String) : Option String :=
  let tail := name.toList.reverse.takeWhile (· != '.')
  if tail.length + 1 < name.length then some (String.ofList tail.reverse) else none

end Path

end CodeSmells
