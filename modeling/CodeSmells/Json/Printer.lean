import CodeSmells.Json.Basic
import CodeSmells.Number.Shortest

/-!
# JSON text of a value

`Json.compact` writes a value without blanks and `Json.pretty` writes every
item and member on a line of its own, two blanks deeper than its container.
-/

namespace CodeSmells
namespace Json

/-- Positional from 0.00001 and below 10 ^ 16, else `1e+20` and `2.5e-10`. -/
def realStyle : DecimalStyle :=
  ⟨some 16, some (-5), "+"⟩

/-- A digit of a `\u` escape. -/
def hexDigit (n : Nat) : Char :=
  "0123456789abcdef".toList.getD n '0'

/-- A character inside quotes: quotes, backslashes and control characters are escaped. -/
def escape (c : Char) : List Char :=
  if c = '"' then ['\\', '"']
  else if c = '\\' then ['\\', '\\']
  else if c = '\n' then ['\\', 'n']
  else if c = '\r' then ['\\', 'r']
  else if c = '\t' then ['\\', 't']
  else if c.toNat = 8 then ['\\', 'b']
  else if c.toNat = 12 then ['\\', 'f']
  else if c.toNat < 32 then ['\\', 'u', '0', '0', hexDigit (c.toNat / 16), hexDigit (c.toNat % 16)]
  else [c]

def quoted (text : String) : List Char :=
  '"' :: text.toList.flatMap escape ++ ['"']

/-- A value that holds no other value. -/
def scalar : Json → List Char
  | null => "null".toList
  | bool true => "true".toList
  | bool false => "false".toList
  | integer value => (toString value).toList
  | real value => (realStyle.text value).toList
  | text value => quoted value
  | array _ => []
  | object _ => []

mutual

/-- A value without blanks. -/
def render : Json → List Char
  | array items => '[' :: renderItems items ++ [']']
  | object members => '{' :: renderMembers members ++ ['}']
  | value => scalar value

/-- Items with commas between them. -/
def renderItems : List Json → List Char
  | [] => []
  | [item] => render item
  | item :: rest => render item ++ ',' :: renderItems rest

def renderMembers : List (String × Json) → List Char
  | [] => []
  | [(name, value)] => quoted name ++ ':' :: render value
  | (name, value) :: rest => quoted name ++ ':' :: render value ++ ',' :: renderMembers rest

end

/-- A line break and two blanks for each container. -/
def newLine (depth : Nat) : List Char :=
  '\n' :: List.replicate (2 * depth) ' '

mutual

/-- A value inside `depth` containers, on lines of its own. -/
def layOut (depth : Nat) : Json → List Char
  | array [] => ['[', ']']
  | array items => '[' :: layOutItems (depth + 1) items ++ newLine depth ++ [']']
  | object [] => ['{', '}']
  | object members => '{' :: layOutMembers (depth + 1) members ++ newLine depth ++ ['}']
  | value => scalar value

/-- Items, each on a new line. -/
def layOutItems (depth : Nat) : List Json → List Char
  | [] => []
  | [item] => newLine depth ++ layOut depth item
  | item :: rest => newLine depth ++ layOut depth item ++ ',' :: layOutItems depth rest

def layOutMembers (depth : Nat) : List (String × Json) → List Char
  | [] => []
  | [(name, value)] => newLine depth ++ quoted name ++ ':' :: ' ' :: layOut depth value
  | (name, value) :: rest =>
      newLine depth ++ quoted name ++ ':' :: ' ' :: layOut depth value
        ++ ',' :: layOutMembers depth rest

end

/-- The text of a value without blanks. -/
def compact (value : Json) : String :=
  String.ofList value.render

/-- The text of a value on many lines. -/
def pretty (value : Json) : String :=
  String.ofList (value.layOut 0)

end Json
end CodeSmells
