import CodeSmells.Json.Read

/-!
# Default expressions

The expression that a parameter defaults to, known by its tag.  A payload is
kept as it was written, and a tag without a name of its own is `unknown`.

An expression is read in two steps: first the tag is found among the other
members, all of which are kept, then the payload is taken from those.  Refusals
of the second step have no place of their own.
-/

namespace CodeSmells

inductive Expression where
  | true
  | false
  | nil
  | int (value : Option Json)
  | float (value : Option Json)
  | str (value : Option Json)
  | sym (value : Option Json)
  /-- An expression that is no literal. -/
  | other (node : String)
  /-- A tag without a name of its own. -/
  | unknown
deriving Inhabited

namespace Expression

/-- Whether an expression is `true` or `false`. -/
def isBooleanLiteral : Expression → Bool
  | true => Bool.true
  | false => Bool.true
  | _ => Bool.false

def tag : Expression → String
  | true => "true"
  | false => "false"
  | nil => "nil"
  | int _ => "int"
  | float _ => "float"
  | str _ => "str"
  | sym _ => "sym"
  | other _ => "other"
  | unknown => "unknown"

/-- The members after the tag. -/
def payload : Expression → List (String × Json)
  | int (some value) => [("value", value)]
  | float (some value) => [("value", value)]
  | str (some value) => [("value", value)]
  | sym (some value) => [("value", value)]
  | other node => [("node", .text node)]
  | _ => []

def toJson (expression : Expression) : Json :=
  .object (("type", .text expression.tag) :: expression.payload)

/-- What a tag asks for. -/
inductive Form where
  | plain (expression : Expression)
  | withValue (build : Option Json → Expression)
  | withNode

def form (tag : String) : Form :=
  if tag = "true" then .plain true
  else if tag = "false" then .plain false
  else if tag = "nil" then .plain nil
  else if tag = "int" then .withValue int
  else if tag = "float" then .withValue float
  else if tag = "str" then .withValue str
  else if tag = "sym" then .withValue sym
  else if tag = "other" then .withNode
  else .plain unknown

open Json

/-- Refuse where the place is not known. -/
def refuseHere {α : Type} (cause : Cause) : Reading α :=
  .error ⟨cause, none⟩

/-- A payload value; `null` is the same as none. -/
def payloadValue : Json → Option Json
  | .null => none
  | value => some (sortMembers value)

def payloadNode : Json → Reading String
  | .text node => .ok node
  | value => refuseHere (.wrongType (found value) .string)

/-- The only value under a name, which must not be repeated. -/
def soleValue {α : Type} (name : String) (read : Json → Reading α) :
    Option α → List (String × Json) → Reading (Option α)
  | seen, [] => .ok seen
  | seen, (key, value) :: rest =>
      if key = name then
        match seen with
        | some _ => refuseHere (.repeatedField name)
        | none => do
            let first ← read value
            soleValue name read (some first) rest
      else soleValue name read seen rest

/-- The expression of a tag and the members beside it. -/
def ofMembers (tag : String) (members : List (String × Json)) : Reading Expression :=
  match form tag with
  | .plain expression => .ok expression
  | .withValue build =>
      (soleValue "value" (fun value => .ok (payloadValue value)) none members).map fun value =>
        build (value.getD none)
  | .withNode =>
      (soleValue "node" payloadNode none members).map fun node => other (node.getD "")

/-- The expression of a tag and the items after it. -/
def ofItems (tag : String) (items : List Json) : Reading Expression :=
  let tooMany (most : Nat) : Reading Expression :=
    refuseHere (.wrongLength items.length (.items most))
  match form tag with
  | .plain expression => if items.isEmpty then .ok expression else tooMany 0
  | .withValue build =>
      match items with
      | [] => .ok (build none)
      | [value] => .ok (build (payloadValue value))
      | _ => tooMany 1
  | .withNode =>
      match items with
      | [] => .ok (other "")
      | [value] => (payloadNode value).map other
      | value :: _ => do
          let _ ← payloadNode value
          tooMany 1

/-- The tag and the other members met so far, the last one first. -/
structure Draft where
  tag : Option String
  members : List (String × Json)

/-- The members of an expression. -/
def field (room : Nat) (draft : Draft) (name : String) : FieldRule Draft :=
  if name = "type" then
    if draft.tag.isSome then .repeated name
    else .known fun node => (readText .variantName room node).map fun tag =>
      { draft with tag := some tag }
  else .known fun node => (readAny room node).map fun value =>
    { draft with members := (name, value) :: draft.members }

/-- An expression as an object with a tag, or as an array that starts with the tag. -/
def read : Reader Expression
  | room, .object start entries => do
      let (tag, members) ← enter room start fun room => do
        let (draft, stop) ← entries.fold (field room) ⟨none, []⟩
        let tag ← requireField "type" stop draft.tag
        .ok (tag, draft.members.reverse)
      ofMembers tag members
  | room, .array start items => do
      let (tag, values) ← enter room start fun room => do
        match items with
        | .close stop => refuseAt (.missingField "type") stop
        | .broken fault => fault.read
        | .item value _ more => do
            let tag ← readText .variantName room value
            let values ← more.readAll (readAny room)
            .ok (tag, values)
      ofItems tag values
  | _, node => refuse .expression node

end Expression

end CodeSmells
