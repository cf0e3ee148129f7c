import CodeSmells.Toml.Refusal

/-!
# Reading values from items

Readers turn an item into a value or refuse it.  An item without a place of its
own, such as a table that only a dotted key implies, has the place of its key.
A date or a time counts as a table with one field that nobody reads.
-/

namespace CodeSmells
namespace Toml

/-- A reader of items with their places. -/
abbrev Reader (α : Type) := Span → Item → Reading α

/-- How a message names an item. -/
def found : Item → Found
  | .scalar (.text value) _ => .text value
  | .scalar (.integer value) _ => .integer value
  | .scalar (.real value) _ => .real value
  | .scalar (.bool value) _ => .bool value
  | .scalar (.moment _) _ => .map
  | .array _ _ => .sequence
  | .braces _ _ => .map
  | .table _ _ => .map
  | .tables _ => .sequence

/-- Refuse an item that is not what was expected. -/
def refuse {α : Type} (expected : Expected) (span : Span) (item : Item) : Reading α :=
  .error (.wrongType (found item) expected span)

def readText : Reader String
  | _, .scalar (.text value) _ => .ok value
  | span, item => refuse .string span item

def readBool : Reader Bool
  | _, .scalar (.bool value) _ => .ok value
  | span, item => refuse .boolean span item

/-- The items of a sequence: those of an array, or the tables of one header. -/
def Item.items? : Item → Option (List Item)
  | .array items _ => some items
  | .tables elements => some (elements.map fun e => .table e.1 e.2)
  | _ => none

def Item.entries? : Item → Option Entries
  | .braces entries _ => some entries
  | .table _ entries => some entries
  | _ => none

/-- The place of an item under a key. -/
def spanUnder (key : Key) (item : Item) : Span :=
  item.span?.getD key.span

def readList {α : Type} (read : Reader α) : Reader (List α)
  | span, item =>
      match item.items? with
      | some items => items.mapM fun i => read (i.span?.getD span) i
      | none => refuse .sequence span item

/-- Read the entries of a table in order into a draft. -/
def foldEntries {σ : Type} (field : σ → String → Option (Reader σ)) (draft : σ) :
    Entries → Reading σ
  | [] => .ok draft
  | (key, item) :: rest =>
      match field draft key.name with
      | none => foldEntries field draft rest
      | some read => do
          let draft ← read (spanUnder key item) item
          foldEntries field draft rest

/-- Read the first items of a sequence into a draft, one by each reader. -/
def foldItems {σ : Type} (span : Span) (draft : σ) : List (σ → Reader σ) → List Item → Reading σ
  | read :: readers, item :: items => do
      let draft ← read draft (item.span?.getD span) item
      foldItems span draft readers items
  | _, _ => .ok draft

/-- A structure as a table, or as a sequence of its fields in order. -/
def readRecord {σ : Type} (name : String) (blank : σ)
    (fields : List (String × (σ → Reader σ))) : Reader σ
  | span, item =>
      match item.entries?, item.items? with
      | some entries, _ =>
          foldEntries (fun draft key => (fields.lookup key).map fun read => read draft)
            blank entries
      | none, some items => foldItems span blank (fields.map Prod.snd) items
      | none, none =>
          match item with
          | .scalar (.moment _) _ => .ok blank
          | _ => refuse (.record name) span item

end Toml
end CodeSmells
