import CodeSmells.Json.Literal
import CodeSmells.Json.Refusal

/-!
# JSON text as a tree

A `Node` is a value as it stands in a text, with places in bytes.  Where the
text breaks the grammar the tree has a fault, and nothing after it.  Whether the
fault is met, and how it is worded, depends on the reader: a value may be read
or skipped.  Reading checks more than skipping: it pairs surrogates, it bounds
numbers and it bounds the depth of containers.
-/

namespace CodeSmells
namespace Json

/-- A break of the grammar as a reader that reads meets it, and as one that skips. -/
structure Fault where
  reading : Malformation
  place : Nat
  skipping : Malformation
  skippingPlace : Nat
deriving DecidableEq, Repr

/-- A fault that all readers meet alike. -/
def Fault.plain (cause : Malformation) (place : Nat) : Fault :=
  ⟨cause, place, cause, place⟩

/-- A fault with two wordings. -/
def Fault.worded (reading skipping : Malformation) (place : Nat) : Fault :=
  ⟨reading, place, skipping, place⟩

/-- Refuse for a fault met when reading. -/
def Fault.read {α : Type} (fault : Fault) : Reading α :=
  refuseAt (.malformed fault.reading) fault.place

/-- Refuse for a fault met when skipping. -/
def Fault.skip {α : Type} (fault : Fault) : Reading α :=
  refuseAt (.malformed fault.skipping) fault.skippingPlace

/-- A piece of a text in quotes. -/
inductive Piece where
  | plain (c : Char)
  /-- A backslash and a letter. -/
  | escaped (c : Char)
  /-- A backslash, a `u` and four hexadecimal digits. -/
  | unit (code : Nat)
deriving DecidableEq, Repr

/-- A text in quotes: where its pieces start, and where it ends, if it does. -/
structure Quotation where
  start : Nat
  pieces : List Piece
  ending : Except Fault Nat
deriving Repr

mutual

/-- A value, its places, and the faults in it. -/
inductive Node where
  | null (start stop : Nat)
  | bool (value : Bool) (start stop : Nat)
  | number (literal : Literal) (start stop : Nat)
  | text (content : Quotation)
  | array (start : Nat) (items : Items)
  | object (start : Nat) (entries : Entries)
  /-- The text ends where a value is due. -/
  | missing (place : Nat)
  /-- The value that starts here is no JSON. -/
  | broken (start : Nat) (fault : Fault)

/-- What follows the opening bracket of an array, or one of its items. -/
inductive Items where
  | close (stop : Nat)
  | broken (fault : Fault)
  /-- An item, and where a reader stands that leaves the array after it. -/
  | item (value : Node) (after : Nat) (more : Items)

/-- What follows the opening brace of an object, or one of its members. -/
inductive Entries where
  | close (stop : Nat)
  | broken (fault : Fault)
  /-- Something that is no text stands where the first key is due. -/
  | keyless (fault : Fault) (instead : Node)
  /-- No colon follows a key. -/
  | colonless (key : Quotation) (afterKey : Nat) (fault : Fault)
  /-- A member, and where a reader stands that leaves the object after its key or value. -/
  | entry (key : Quotation) (afterKey : Nat) (value : Node) (after : Nat) (more : Entries)

end

/-- Where a value starts. -/
def Node.start : Node → Nat
  | .null start _ => start
  | .bool _ start _ => start
  | .number _ start _ => start
  | .text content => content.start
  | .array start _ => start
  | .object start _ => start
  | .missing place => place
  | .broken start _ => start

end Json
end CodeSmells
