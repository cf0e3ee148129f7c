import CodeSmells.Number.Binary64

/-!
# TOML documents

A document is a table of items with their places in bytes.  A table written in
braces is complete; tables written by headers and by dotted keys can grow, and
their `Traits` say how.
-/

namespace CodeSmells
namespace Toml

/-- A run of bytes. -/
structure Span where
  start : Nat
  stop : Nat
deriving DecidableEq, Repr

/-- A key and where it was first written. -/
structure Key where
  name : String
  span : Span
deriving DecidableEq, Repr

/-- A value that holds no other value. -/
inductive Scalar where
  | text (value : String)
  | integer (value : Int)
  | real (value : Binary64)
  | bool (value : Bool)
  /-- A date, a time or both, by its normal text. -/
  | moment (value : String)
deriving DecidableEq, Repr

/-- How a table came about. -/
structure Traits where
  /-- Only needed for the tables in it so far. -/
  implicit : Bool
  /-- Made by a dotted key. -/
  dotted : Bool
  span : Option Span
deriving DecidableEq, Repr

/-- An item of a table or an array. -/
inductive Item where
  | scalar (value : Scalar) (span : Span)
  | array (items : List Item) (span : Span)
  /-- A table in braces. -/
  | braces (entries : List (Key × Item)) (span : Span)
  | table (traits : Traits) (entries : List (Key × Item))
  /-- The tables of headers in double brackets. -/
  | tables (elements : List (Traits × List (Key × Item)))

/-- The entries of a table in order. -/
abbrev Entries := List (Key × Item)

/-- The place of an item, if it has one of its own. -/
def Item.span? : Item → Option Span
  | scalar _ span => some span
  | array _ span => some span
  | braces _ span => some span
  | table traits _ => traits.span
  | tables elements =>
      match elements.head?.bind (·.1.span), elements.getLast?.bind (·.1.span) with
      | some first, some last => some ⟨first.start, last.stop⟩
      | _, _ => none

namespace Entries

def find? (name : String) : Entries → Option Item
  | [] => none
  | (key, item) :: rest => if key.name = name then some item else find? name rest

def replace (name : String) (item : Item) : Entries → Entries
  | [] => []
  | (key, old) :: rest =>
      if key.name = name then (key, item) :: rest else (key, old) :: replace name item rest

def remove (name : String) (entries : Entries) : Entries :=
  entries.filter fun e => e.1.name ≠ name

end Entries

/-- A line of a document that is not blank. -/
inductive Statement where
  /-- `[a.b]` -/
  | header (path : List Key) (span : Span)
  /-- `[[a.b]]` -/
  | arrayHeader (path : List Key) (span : Span)
  /-- `a.b = item` -/
  | assign (path : List Key) (item : Item)

end Toml
end CodeSmells
