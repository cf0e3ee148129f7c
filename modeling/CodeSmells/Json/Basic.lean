import CodeSmells.Number.Binary64

/-!
# JSON values

A JSON value without its layout.  Numbers are integers or binary fractions, and
the members of an object are a list, so that a value keeps the order in which
it is to be written.
-/

namespace CodeSmells

inductive Json where
  | null
  | bool (value : Bool)
  | integer (value : Int)
  | real (value : Binary64)
  | text (value : String)
  | array (items : List Json)
  | object (members : List (String × Json))
deriving Inhabited

namespace Json

def natural (n : Nat) : Json :=
  .integer n

/-- A map as an object, in the order of its names. -/
def ofMap {β : Type} (toJson : β → Json) (entries : List (String × β)) : Json :=
  .object (entries.map fun e => (e.1, toJson e.2))

end Json

end CodeSmells
