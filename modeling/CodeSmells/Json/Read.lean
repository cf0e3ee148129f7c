import CodeSmells.Json.Scan
import CodeSmells.Text.NameMap

/-!
# Reading values from a tree

Readers turn a node into a value or refuse it.  They walk the tree in the order
of the text, so the first fault of the text is the one that is reported.

`room` is how many more containers may be entered.  A refusal without a place
gets one from the container that is left because of it.
-/

namespace CodeSmells
namespace Json

/-- How deep containers may be nested in a value that is read. -/
def maxDepth : Nat := 127

/-- A reader of nodes inside containers. -/
abbrev Reader (α : Type) := Nat → Node → Reading α

namespace Quotation

/-- The place after the closing quote. -/
def stop (quotation : Quotation) : Nat :=
  match quotation.ending with
  | .ok stop => stop
  | .error fault => fault.place

/-- Whether a number is the first unit of a surrogate pair. -/
def isLeading (code : Nat) : Bool :=
  decide (0xD800 ≤ code) && decide (code < 0xDC00)

def isTrailing (code : Nat) : Bool :=
  decide (0xDC00 ≤ code) && decide (code < 0xE000)

/-- The character of a surrogate pair. -/
def pair (leading trailing : Nat) : Char :=
  Char.ofNat ((leading - 0xD800) * 0x400 + (trailing - 0xDC00) + 0x10000)

/-- The refusal when the text breaks off, or ends, after the first unit of a pair. -/
def afterLeading (place : Nat) : Except Fault Nat → Reading (List Char)
  | .ok _ => refuseAt (.malformed .unpairedSurrogate) (place + 1)
  | .error fault =>
      match fault.reading with
      | .controlCharacter => refuseAt (.malformed .unpairedSurrogate) (place + 1)
      | .badEscape => refuseAt (.malformed .unpairedSurrogate) (place + 2)
      | _ => fault.read

/-- The characters of pieces that start at a place; surrogates must come in pairs. -/
def assemble (ending : Except Fault Nat) : Nat → List Piece → Reading (List Char)
  | _, [] =>
      match ending with
      | .ok _ => .ok []
      | .error fault => fault.read
  | place, .plain c :: rest => (assemble ending (place + c.utf8Size) rest).map (c :: ·)
  | place, .escaped c :: rest => (assemble ending (place + 2) rest).map (c :: ·)
  | place, .unit code :: rest =>
      if isTrailing code then refuseAt (.malformed .loneSurrogate) (place + 6)
      else if isLeading code then
        match rest with
        | [] => afterLeading (place + 6) ending
        | .plain _ :: _ => refuseAt (.malformed .unpairedSurrogate) (place + 7)
        | .escaped _ :: _ => refuseAt (.malformed .unpairedSurrogate) (place + 8)
        | .unit next :: rest =>
            if isTrailing next then
              (assemble ending (place + 12) rest).map (pair code next :: ·)
            else refuseAt (.malformed .loneSurrogate) (place + 12)
      else (assemble ending (place + 6) rest).map (Char.ofNat code :: ·)

/-- The text that was quoted. -/
def read (quotation : Quotation) : Reading String :=
  (assemble quotation.ending (quotation.start + 1) quotation.pieces).map String.ofList

/-- Only the end of a quotation matters to a reader that skips it. -/
def skip (quotation : Quotation) : Reading Unit :=
  match quotation.ending with
  | .ok _ => .ok ()
  | .error fault => fault.skip

end Quotation

mutual

/-- Pass over a value. -/
def Node.skip : Node → Reading Unit
  | .text content => content.skip
  | .array _ items => items.skip
  | .object _ entries => entries.skip
  | .missing place => refuseAt (.malformed .endInValue) place
  | .broken _ fault => fault.skip
  | _ => .ok ()

def Items.skip : Items → Reading Unit
  | .close _ => .ok ()
  | .broken fault => fault.skip
  | .item value _ more => do
      value.skip
      more.skip

def Entries.skip : Entries → Reading Unit
  | .close _ => .ok ()
  | .broken fault => fault.skip
  | .keyless fault _ => fault.skip
  | .colonless key _ fault => do
      key.skip
      fault.skip
  | .entry key _ value _ more => do
      key.skip
      value.skip
      more.skip

end

/-- The number that a literal stands for. -/
def readLiteral (literal : Literal) (stop : Nat) : Reading Json :=
  match literal.value with
  | .ok value => .ok value
  | .error unread => refuseAt (.malformed .numberTooLarge) (stop - unread)

/-- How a message names a value. -/
def found : Json → Found
  | .null => .null
  | .bool value => .bool value
  | .integer value => .integer value
  | .real value => .real value
  | .text value => .text value
  | .array _ => .sequence
  | .object _ => .map

/-- Refuse a node that is not what was expected; a container is refused before it is entered. -/
def refuse {α : Type} (expected : Expected) : Node → Reading α
  | .null _ stop => refuseAt (.wrongType .null expected) stop
  | .bool value _ stop => refuseAt (.wrongType (.bool value) expected) stop
  | .number literal _ stop => do
      let value ← readLiteral literal stop
      refuseAt (.wrongType (found value) expected) stop
  | .text content => do
      let value ← content.read
      refuseAt (.wrongType (.text value) expected) content.stop
  | .array start _ => refuseAt (.wrongType .sequence expected) start
  | .object start _ => refuseAt (.wrongType .map expected) start
  | .missing place => refuseAt (.malformed .endInValue) place
  | .broken _ fault => fault.read

def readText (expected : Expected) : Reader String
  | _, .text content => content.read
  | _, node => refuse expected node

def readBool : Reader Bool
  | _, .bool value _ _ => .ok value
  | _, node => refuse .boolean node

/-- A value, or nothing for `null`. -/
def readOptional {α : Type} (read : Reader α) : Reader (Option α)
  | _, .null _ _ => .ok none
  | room, node => (read room node).map some

/-- A whole number of 64 bits. -/
def readNatural : Reader Nat
  | _, .number literal _ stop => do
      match ← readLiteral literal stop with
      | .integer (.ofNat n) => .ok n
      | .integer value => refuseAt (.wrongValue (.integer value) .wholeNumber) stop
      | value => refuseAt (.wrongType (found value) .wholeNumber) stop
  | _, node => refuse .wholeNumber node

def readNothing : Reader Unit
  | _, .null _ _ => .ok ()
  | _, node => refuse .nothing node

/-- Enter a container, if there is room. -/
def enter {α : Type} (room start : Nat) (inside : Nat → Reading α) : Reading α :=
  match room with
  | 0 => refuseAt (.malformed .tooDeep) (start + 1)
  | room + 1 => inside room

namespace Items

def readAll {α : Type} (read : Node → Reading α) : Items → Reading (List α)
  | .close _ => .ok []
  | .broken fault => fault.read
  | .item value after more => do
      let first ← settle after (read value)
      let rest ← more.readAll read
      .ok (first :: rest)

/-- Read the next item, if there is one, and what follows it. -/
def next {α : Type} (read : Node → Reading α) : Items → Reading (Option α × Items)
  | .close stop => .ok (none, .close stop)
  | .broken fault => fault.read
  | .item value after more => (settle after (read value)).map fun first => (some first, more)

/-- Read the item that a structure needs at an index. -/
def required {α : Type} (expected : Expected) (index : Nat) (read : Node → Reading α)
    (items : Items) : Reading (α × Items) :=
  match items with
  | .close stop => refuseAt (.wrongLength index expected) stop
  | .broken fault => fault.read
  | .item value after more => (settle after (read value)).map fun first => (first, more)

/-- Refuse items after those that a structure has. -/
def finish : Items → Reading Unit
  | .close _ => .ok ()
  | .broken fault =>
      refuseAt (.malformed (if fault.reading = .noListSeparator then .trailingCharacters
        else fault.reading)) fault.place
  | .item (.missing place) _ _ => refuseAt (.malformed .trailingCharacters) place
  | .item value _ _ => refuseAt (.malformed .trailingCharacters) (value.start + 1)

end Items

/-- A sequence of values. -/
def readList {α : Type} (read : Reader α) : Reader (List α)
  | room, .array start items => enter room start fun room => items.readAll (read room)
  | _, node => refuse .sequence node

/-- What a structure does with a field that was met. -/
inductive FieldRule (σ : Type) where
  /-- A name that the structure does not know. -/
  | unknown
  /-- A field that was met before. -/
  | repeated (name : String)
  /-- A field whose value is read into the draft of the structure. -/
  | known (read : Node → Reading σ)

namespace Entries

/-- Read members in order into a draft; the end is the place after the closing brace. -/
def fold {σ : Type} (field : σ → String → FieldRule σ) : σ → Entries → Reading (σ × Nat)
  | draft, .close stop => .ok (draft, stop)
  | _, .broken fault => fault.read
  | _, .keyless fault _ => fault.read
  | draft, .colonless key afterKey fault => do
      let name ← key.read
      match field draft name with
      | .repeated name => refuseAt (.repeatedField name) afterKey
      | _ => fault.read
  | draft, .entry key afterKey value after more => do
      let name ← key.read
      match field draft name with
      | .repeated name => refuseAt (.repeatedField name) afterKey
      | .unknown => do
          value.skip
          more.fold field draft
      | .known read => do
          let draft ← settle after (read value)
          more.fold field draft

end Entries

/-- A field without which a structure is refused. -/
def requireField {α : Type} (name : String) (stop : Nat) : Option α → Reading α
  | some value => .ok value
  | none => refuseAt (.missingField name) stop

/-- An object with values of one kind; the last value of a name counts. -/
def readMap {β : Type} (read : Reader β) : Reader (NameMap β)
  | room, .object start entries => enter room start fun room =>
      (entries.fold (fun map name => .known fun node =>
        (read room node).map fun value => map.insert name value) NameMap.empty).map Prod.fst
  | _, node => refuse .map node

mutual

/-- Any value; members keep their order, and names may be repeated. -/
def readAny (room : Nat) : Node → Reading Json
  | .null _ _ => .ok .null
  | .bool value _ _ => .ok (.bool value)
  | .number literal _ stop => readLiteral literal stop
  | .text content => content.read.map .text
  | .array start items =>
      match room with
      | 0 => refuseAt (.malformed .tooDeep) (start + 1)
      | room + 1 => (readAnyItems room items).map .array
  | .object start entries =>
      match room with
      | 0 => refuseAt (.malformed .tooDeep) (start + 1)
      | room + 1 => (readAnyMembers room entries).map .object
  | .missing place => refuseAt (.malformed .endInValue) place
  | .broken _ fault => fault.read

def readAnyItems (room : Nat) : Items → Reading (List Json)
  | .close _ => .ok []
  | .broken fault => fault.read
  | .item value _ more => do
      let first ← readAny room value
      let rest ← readAnyItems room more
      .ok (first :: rest)

def readAnyMembers (room : Nat) : Entries → Reading (List (String × Json))
  | .close _ => .ok []
  | .broken fault => fault.read
  | .keyless fault _ => fault.read
  | .colonless key _ fault => do
      let _ ← key.read
      fault.read
  | .entry key _ value _ more => do
      let name ← key.read
      let first ← readAny room value
      let rest ← readAnyMembers room more
      .ok ((name, first) :: rest)

end

mutual

/-- The value with the members of each object in the order of their names, the last of a name. -/
def sortMembers : Json → Json
  | .array items => .array (sortItems items)
  | .object members => .object (NameMap.ofList (sortValues members)).entries
  | value => value

def sortItems : List Json → List Json
  | [] => []
  | item :: rest => sortMembers item :: sortItems rest

def sortValues : List (String × Json) → List (String × Json)
  | [] => []
  | (name, value) :: rest => (name, sortMembers value) :: sortValues rest

end

/-- Read the one value of a text. -/
def parse {α : Type} (read : Reader α) (text : String) : Reading α := do
  let document := scan text
  let value ← read maxDepth document.root
  match document.trailing with
  | none => .ok value
  | some fault => fault.read

end Json
end CodeSmells
