import CodeSmells.Json.Node
import CodeSmells.Text.Cursor

/-!
# Scanning JSON text

`Json.scan` turns a text into its tree.  It accepts every value that the
grammar of JSON allows, however deep, and puts a fault where the text breaks
the grammar.

A cursor is threaded through; no cursor means that the text broke inside the
value just scanned, so that nothing after it is looked at.
-/

namespace CodeSmells

namespace Cursor

/-- The blanks of JSON. -/
def isBlank (c : Char) : Bool :=
  c == ' ' || c == '\t' || c == '\n' || c == '\r'

def skipBlanks (cursor : Cursor) : Cursor :=
  cursor.pass (cursor.rest.takeWhile isBlank).length

/-- The place shown for the character that stands here. -/
def peek (cursor : Cursor) : Nat :=
  if cursor.rest.isEmpty then cursor.place else cursor.place + 1

/-- Where a reader stands that leaves a list here: past a bracket, or past a comma and blanks. -/
def leaveList (cursor : Cursor) : Nat :=
  let here := cursor.skipBlanks
  match here.rest with
  | ']' :: _ => here.place + 1
  | ',' :: _ => (here.pass 1).skipBlanks.place
  | _ => here.place

/-- Where a reader stands that leaves an object here: past a brace. -/
def leaveObject (cursor : Cursor) : Nat :=
  let here := cursor.skipBlanks
  match here.rest with
  | '}' :: _ => here.place + 1
  | _ => here.place

end Cursor

namespace Json

/-- The number that four hexadecimal digits write. -/
def hexUnit? (a b c d : Char) : Option Nat :=
  match hexValue? a, hexValue? b, hexValue? c, hexValue? d with
  | some a, some b, some c, some d => some (((a * 16 + b) * 16 + c) * 16 + d)
  | _, _, _, _ => none

/-- The character that a backslash and a letter stand for. -/
def escapeValue? (c : Char) : Option Char :=
  if c = '"' ∨ c = '\\' ∨ c = '/' then some c
  else if c = 'b' then some (Char.ofNat 8)
  else if c = 'f' then some (Char.ofNat 12)
  else if c = 'n' then some '\n'
  else if c = 'r' then some '\r'
  else if c = 't' then some '\t'
  else none

/--
The pieces up to the closing quote, how they end, and the text after that.  A
control character is passed over by a reader that reads, but not by one that skips.
-/
def scanPieces (place : Nat) : List Char → List Piece × Except Fault Nat × List Char
  | [] => ([], .error (.plain .endInText place), [])
  | '"' :: s => ([], .ok (place + 1), s)
  | ['\\'] => ([], .error (.plain .endInText (place + 1)), [])
  | '\\' :: 'u' :: a :: b :: c :: d :: s =>
      match hexUnit? a b c d with
      | some code =>
          let tail := scanPieces (place + 6) s
          (.unit code :: tail.1, tail.2)
      | none => ([], .error (.plain .badHexEscape (place + 6)), s)
  | '\\' :: 'u' :: s =>
      if 4 ≤ byteCount s then ([], .error (.plain .badHexEscape (place + 6)), s)
      else ([], .error (.plain .endInText (place + 2 + byteCount s)), [])
  | '\\' :: c :: s =>
      match escapeValue? c with
      | some value =>
          let tail := scanPieces (place + 2) s
          (.escaped value :: tail.1, tail.2)
      | none => ([], .error (.plain .badEscape (place + 2)), s)
  | c :: s =>
      if c.toNat < 32 then
        ([], .error ⟨.controlCharacter, place + 1, .controlCharacter, place⟩, s)
      else
        let tail := scanPieces (place + c.utf8Size) s
        (.plain c :: tail.1, tail.2)

/-- A quotation from its opening quote on. -/
def scanQuotation (cursor : Cursor) : Quotation × Option Cursor :=
  let found := scanPieces (cursor.place + 1) (cursor.rest.drop 1)
  (⟨cursor.place, found.1, found.2.1⟩,
    match found.2.1 with
    | .ok stop => some ⟨stop, found.2.2⟩
    | .error _ => none)

/-- The digits that a text starts with. -/
def digitsOf (cs : List Char) : List Nat :=
  (cs.takeWhile Char.isDigit).map fun c => c.toNat - 48

/-- A fault inside a number; a reader of an unfinished number waits for its value. -/
def numberFault (cursor : Cursor) : Fault :=
  if cursor.rest.isEmpty then .worded .endInValue .badNumber cursor.place
  else .plain .badNumber cursor.peek

/-- The digits here, of which there must be one. -/
def scanDigits (cursor : Cursor) : Except Fault (List Nat × Cursor) :=
  match digitsOf cursor.rest with
  | [] => .error (numberFault cursor)
  | digits => .ok (digits, cursor.pass digits.length)

/-- The digits of a whole number, without a needless zero. -/
def scanWhole (cursor : Cursor) : Except Fault (List Nat × Cursor) := do
  let found ← scanDigits cursor
  match found.1 with
  | 0 :: _ :: _ => .error (.plain .badNumber (cursor.place + 2))
  | _ => .ok found

/-- The point and the digits after it, if there is a point. -/
def scanFraction (cursor : Cursor) : Except Fault (List Nat × Cursor) :=
  match cursor.rest with
  | '.' :: _ => scanDigits (cursor.pass 1)
  | _ => .ok ([], cursor)

def scanExponent (cursor : Cursor) : Except Fault (Option (Bool × List Nat) × Cursor) :=
  match cursor.rest with
  | c :: s =>
      if c = 'e' ∨ c = 'E' then
        let width := match s with
          | '+' :: _ => 2
          | '-' :: _ => 2
          | _ => 1
        let down := match s with
          | '-' :: _ => true
          | _ => false
        (scanDigits (cursor.pass width)).map fun found => (some (down, found.1), found.2)
      else .ok (none, cursor)
  | [] => .ok (none, cursor)

def scanLiteral (cursor : Cursor) : Except Fault (Literal × Cursor) := do
  let negative := match cursor.rest with
    | '-' :: _ => true
    | _ => false
  let whole ← scanWhole (if negative then cursor.pass 1 else cursor)
  let fraction ← scanFraction whole.2
  let exponent ← scanExponent fraction.2
  .ok (⟨negative, whole.1, fraction.1, exponent.1⟩, exponent.2)

/-- The rest of a word whose first letter has been seen. -/
def scanWord (cursor : Cursor) : List Char → Except Fault Cursor
  | [] => .ok cursor
  | letter :: word =>
      match cursor.rest with
      | [] => .error (.plain .endInValue cursor.place)
      | c :: _ =>
          if c = letter then scanWord (cursor.pass 1) word
          else .error (.plain .badWord (cursor.place + 1))

/-- A word that stands for a value. -/
def scanConstant (cursor : Cursor) (word : List Char) (node : Nat → Nat → Node) :
    Node × Option Cursor :=
  match scanWord (cursor.pass 1) word with
  | .ok next => (node cursor.place next.place, some next)
  | .error fault => (.broken cursor.place fault, none)

mutual

/-- The value after blanks. -/
def scanValue : Nat → Cursor → Node × Option Cursor
  | 0, cursor => (.missing cursor.place, none)
  | fuel + 1, before =>
      let cursor := before.skipBlanks
      match cursor.rest with
      | [] => (.missing cursor.place, none)
      | 'n' :: _ => scanConstant cursor ['u', 'l', 'l'] .null
      | 't' :: _ => scanConstant cursor ['r', 'u', 'e'] (.bool true)
      | 'f' :: _ => scanConstant cursor ['a', 'l', 's', 'e'] (.bool false)
      | '"' :: _ =>
          let found := scanQuotation cursor
          (.text found.1, found.2)
      | '[' :: _ =>
          let found := scanItems fuel (cursor.pass 1)
          (.array cursor.place found.1, found.2)
      | '{' :: _ =>
          let found := scanEntries fuel (cursor.pass 1)
          (.object cursor.place found.1, found.2)
      | c :: _ =>
          if c = '-' ∨ c.isDigit then
            match scanLiteral cursor with
            | .ok (literal, next) => (.number literal cursor.place next.place, some next)
            | .error fault => (.broken cursor.place fault, none)
          else (.broken cursor.place (.plain .noValue cursor.peek), none)

/-- The items after an opening bracket. -/
def scanItems : Nat → Cursor → Items × Option Cursor
  | 0, cursor => (.broken (.plain .endInList cursor.place), none)
  | fuel + 1, before =>
      let cursor := before.skipBlanks
      match cursor.rest with
      | [] => (.broken (.plain .endInList cursor.place), none)
      | ']' :: _ => (.close (cursor.place + 1), some (cursor.pass 1))
      | _ => scanItem fuel cursor

/-- An item and those after it. -/
def scanItem : Nat → Cursor → Items × Option Cursor
  | 0, cursor => (.broken (.plain .endInList cursor.place), none)
  | fuel + 1, cursor =>
      match scanValue fuel cursor with
      | (value, none) => (.item value cursor.place (.broken (.plain .endInList cursor.place)), none)
      | (value, some next) =>
          let more := scanMoreItems fuel next
          (.item value next.leaveList more.1, more.2)

/-- What follows an item. -/
def scanMoreItems : Nat → Cursor → Items × Option Cursor
  | 0, cursor => (.broken (.plain .endInList cursor.place), none)
  | fuel + 1, before =>
      let cursor := before.skipBlanks
      match cursor.rest with
      | [] => (.broken (.plain .endInList cursor.place), none)
      | ']' :: _ => (.close (cursor.place + 1), some (cursor.pass 1))
      | ',' :: _ =>
          let next := (cursor.pass 1).skipBlanks
          match next.rest with
          | ']' :: _ => (.broken (.worded .trailingComma .noValue next.peek), none)
          | _ => scanItem fuel next
      | _ => (.broken (.plain .noListSeparator cursor.peek), none)

/-- The members after an opening brace. -/
def scanEntries : Nat → Cursor → Entries × Option Cursor
  | 0, cursor => (.broken (.plain .endInObject cursor.place), none)
  | fuel + 1, before =>
      let cursor := before.skipBlanks
      match cursor.rest with
      | [] => (.broken (.plain .endInObject cursor.place), none)
      | '}' :: _ => (.close (cursor.place + 1), some (cursor.pass 1))
      | '"' :: _ => scanEntry fuel cursor
      | _ => (.keyless (.plain .badKey cursor.peek) (scanValue fuel cursor).1, none)

/-- A member from its key on, and those after it. -/
def scanEntry : Nat → Cursor → Entries × Option Cursor
  | 0, cursor => (.broken (.plain .endInObject cursor.place), none)
  | fuel + 1, cursor =>
      match scanQuotation cursor with
      | (key, none) => (.colonless key cursor.place (.plain .endInText cursor.place), none)
      | (key, some next) =>
          let colon := next.skipBlanks
          match colon.rest with
          | ':' :: _ =>
              match scanValue fuel (colon.pass 1) with
              | (value, none) =>
                  (.entry key next.leaveObject value colon.place
                    (.broken (.plain .endInObject colon.place)), none)
              | (value, some next') =>
                  let more := scanMoreEntries fuel next'
                  (.entry key next.leaveObject value next'.leaveObject more.1, more.2)
          | [] => (.colonless key next.leaveObject (.plain .endInObject colon.peek), none)
          | _ => (.colonless key next.leaveObject (.plain .noColon colon.peek), none)

/-- What follows a member. -/
def scanMoreEntries : Nat → Cursor → Entries × Option Cursor
  | 0, cursor => (.broken (.plain .endInObject cursor.place), none)
  | fuel + 1, before =>
      let cursor := before.skipBlanks
      match cursor.rest with
      | [] => (.broken (.plain .endInObject cursor.place), none)
      | '}' :: _ => (.close (cursor.place + 1), some (cursor.pass 1))
      | ',' :: _ =>
          let next := (cursor.pass 1).skipBlanks
          match next.rest with
          | [] => (.broken (.worded .endInValue .endInObject next.place), none)
          | '}' :: _ => (.broken (.worded .trailingComma .badKey next.peek), none)
          | '"' :: _ => scanEntry fuel next
          | _ => (.broken (.plain .badKey next.peek), none)
      | _ => (.broken (.plain .noObjectSeparator cursor.peek), none)

end

/-- The value in a text, and the fault of what follows it. -/
structure Document where
  root : Node
  trailing : Option Fault

/--
The tree of a text.  Of the functions above at most three are entered for one
character, so the fuel is never used up.
-/
def scan (text : String) : Document :=
  let cs := text.toList
  match scanValue (3 * cs.length + 3) ⟨0, cs⟩ with
  | (root, none) => ⟨root, none⟩
  | (root, some next) =>
      let rest := next.skipBlanks
      ⟨root, if rest.rest.isEmpty then none
        else some (.plain .trailingCharacters rest.peek)⟩

end Json
end CodeSmells
