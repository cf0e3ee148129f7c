import CodeSmells.Text.Cursor
import CodeSmells.Toml.Assembly
import CodeSmells.Toml.Moment

/-!
# Scanning TOML text

`Toml.statements?` splits a text into its statements, or finds that it is not
TOML.  A `Scanner` takes what it accepts from the text before it; the scanners
of nested values count down from the number of characters left.
-/

namespace CodeSmells
namespace Toml

/-- A scanner takes what it accepts from a cursor. -/
abbrev Scanner (α : Type) := StateT Cursor Option α

/-- How deep arrays, braces and dotted keys may go. -/
def maxDepth : Nat := 79

namespace Scanner

def fail {α : Type} : Scanner α :=
  fun _ => none

def rest : Scanner (List Char) := do
  return (← get).rest

/-- The place of the next character. -/
def place : Scanner Nat := do
  return (← get).place

/-- Pass over so many characters of one byte. -/
def pass (n : Nat) : Scanner Unit :=
  modify fun cursor => cursor.pass n

/-- Take the characters that satisfy `p`. -/
def takeWhile (p : Char → Bool) : Scanner (List Char) := do
  let cursor ← get
  set (cursor.passWhile p)
  return cursor.rest.takeWhile p

def char (c : Char) : Scanner Unit := do
  match ← rest with
  | d :: _ => if d = c then pass 1 else fail
  | [] => fail

/-- Take a word of characters of one byte. -/
def word (expected : String) : Scanner Unit := do
  if expected.toList.isPrefixOf (← rest) then pass expected.length else fail

def orElse {α : Type} (first second : Scanner α) : Scanner α :=
  fun cursor => (first cursor).or (second cursor)

def option {α : Type} (scanner : Scanner α) : Scanner (Option α) :=
  orElse (some <$> scanner) (pure none)

end Scanner

open Scanner

/-- Blanks within a line. -/
def isBlank (c : Char) : Bool :=
  c == ' ' || c == '\t'

def blanks : Scanner Unit := do
  let _ ← takeWhile isBlank

/-- Characters of comments: all but controls other than the tab. -/
def isCommentChar (c : Char) : Bool :=
  c == '\t' || (decide (32 ≤ c.toNat) && c.toNat != 127)

def endOfLine : Scanner Unit := do
  match ← rest with
  | [] => return ()
  | '\n' :: _ => pass 1
  | '\r' :: '\n' :: _ => pass 2
  | _ => fail

/-- A comment, if there is one, and the end of the line. -/
def restOfLine : Scanner Unit := do
  blanks
  match ← rest with
  | '#' :: _ =>
      let _ ← takeWhile isCommentChar
      endOfLine
  | _ => endOfLine

/--
Pass over blanks, line ends and comments.  A comment ends with its line, or
with the text when there is no more to come.
-/
def skipLayout (more inComment : Bool) (place : Nat) : List Char → Option Cursor
  | '\n' :: s => skipLayout more false (place + 1) s
  | '\r' :: '\n' :: s => skipLayout more false (place + 2) s
  | c :: s =>
      if inComment then
        if isCommentChar c then skipLayout more true (place + c.utf8Size) s else none
      else if isBlank c then skipLayout more false (place + 1) s
      else if c = '#' then skipLayout more true (place + 1) s
      else some ⟨place, c :: s⟩
  | [] => if inComment && more then none else some ⟨place, []⟩

def layout (more : Bool) : Scanner Unit := do
  let cursor ← get
  match skipLayout more false cursor.place cursor.rest with
  | some next => set next
  | none => fail

def charOfCode? (code : Nat) : Option Char :=
  if h : code.isValidChar then some (Char.ofNatAux code h) else none

/-- The number that hexadecimal digits write. -/
def hexNumber? (digits : List Char) : Option Nat :=
  digits.foldlM (fun n c => (hexValue? c).map (n * 16 + ·)) 0

/-- The character of a backslash and a letter. -/
def escapeValue? (c : Char) : Option Char :=
  if c = '"' ∨ c = '\\' then some c
  else if c = 'b' then some (Char.ofNat 8)
  else if c = 'f' then some (Char.ofNat 12)
  else if c = 'n' then some '\n'
  else if c = 'r' then some '\r'
  else if c = 't' then some '\t'
  else none

def prepend (c : Char) (scanned : List Char × Cursor) : List Char × Cursor :=
  (c :: scanned.1, scanned.2)

def endsLine : List Char → Bool
  | '\n' :: _ => true
  | '\r' :: '\n' :: _ => true
  | c :: s => isBlank c && endsLine s
  | [] => false

/-- A text in double quotes, after the first of them. -/
def quotedText (place : Nat) : List Char → Option (List Char × Cursor)
  | [] => none
  | '"' :: s => some ([], ⟨place + 1, s⟩)
  | '\\' :: 'u' :: a :: b :: c :: d :: s => do
      let code ← hexNumber? [a, b, c, d]
      let value ← charOfCode? code
      (quotedText (place + 6) s).map (prepend value)
  | '\\' :: 'U' :: a :: b :: c :: d :: e :: f :: g :: h :: s => do
      let code ← hexNumber? [a, b, c, d, e, f, g, h]
      let value ← charOfCode? code
      (quotedText (place + 10) s).map (prepend value)
  | '\\' :: c :: s => do
      let value ← escapeValue? c
      (quotedText (place + 2) s).map (prepend value)
  | c :: s =>
      if isCommentChar c && c != '\\' then
        (quotedText (place + c.utf8Size) s).map (prepend c)
      else none

/--
A text in three double quotes, after the first of them.  Up to two quotes may
stand before the closing ones.  A backslash at the end of a line takes in all
blanks and line ends after it; `trimming` says that this is under way.
-/
def blockText (trimming : Bool) (place : Nat) : List Char → Option (List Char × Cursor)
  | [] => none
  | '"' :: '"' :: '"' :: '"' :: '"' :: s => some (['"', '"'], ⟨place + 5, s⟩)
  | '"' :: '"' :: '"' :: '"' :: s => some (['"'], ⟨place + 4, s⟩)
  | '"' :: '"' :: '"' :: s => some ([], ⟨place + 3, s⟩)
  | '\\' :: 'u' :: a :: b :: c :: d :: s => do
      let code ← hexNumber? [a, b, c, d]
      let value ← charOfCode? code
      (blockText false (place + 6) s).map (prepend value)
  | '\\' :: 'U' :: a :: b :: c :: d :: e :: f :: g :: h :: s => do
      let code ← hexNumber? [a, b, c, d, e, f, g, h]
      let value ← charOfCode? code
      (blockText false (place + 10) s).map (prepend value)
  | '\r' :: '\n' :: s =>
      if trimming then blockText true (place + 2) s
      else (blockText false (place + 2) s).map (prepend '\n')
  | '\n' :: s =>
      if trimming then blockText true (place + 1) s
      else (blockText false (place + 1) s).map (prepend '\n')
  | '\\' :: c :: s =>
      if endsLine (c :: s) then blockText true (place + 1) (c :: s)
      else do
        let value ← escapeValue? c
        (blockText false (place + 2) s).map (prepend value)
  | c :: s =>
      if trimming && isBlank c then blockText true (place + 1) s
      else if isCommentChar c && c != '\\' then
        (blockText false (place + c.utf8Size) s).map (prepend c)
      else none

/-- A text in single quotes, after the first of them. -/
def literalText (place : Nat) : List Char → Option (List Char × Cursor)
  | [] => none
  | '\'' :: s => some ([], ⟨place + 1, s⟩)
  | c :: s =>
      if isCommentChar c then (literalText (place + c.utf8Size) s).map (prepend c) else none

/-- A text in three single quotes, after the first of them. -/
def literalBlock (place : Nat) : List Char → Option (List Char × Cursor)
  | [] => none
  | '\'' :: '\'' :: '\'' :: '\'' :: '\'' :: s => some (['\'', '\''], ⟨place + 5, s⟩)
  | '\'' :: '\'' :: '\'' :: '\'' :: s => some (['\''], ⟨place + 4, s⟩)
  | '\'' :: '\'' :: '\'' :: s => some ([], ⟨place + 3, s⟩)
  | '\r' :: '\n' :: s => (literalBlock (place + 2) s).map (prepend '\n')
  | '\n' :: s => (literalBlock (place + 1) s).map (prepend '\n')
  | c :: s =>
      if isCommentChar c then (literalBlock (place + c.utf8Size) s).map (prepend c) else none

/-- Scan with a function of the place and the characters. -/
def fromHere (scan : Nat → List Char → Option (List Char × Cursor)) : Scanner String :=
  fun cursor => (scan cursor.place cursor.rest).map fun scanned =>
    (String.ofList scanned.1, scanned.2)

/-- A line end right after the opening quotes does not count. -/
def skipFirstLineEnd : Scanner Unit := do
  match ← rest with
  | '\n' :: _ => pass 1
  | '\r' :: '\n' :: _ => pass 2
  | _ => return ()

/-- A text in one quote of either kind. -/
def lineText : Scanner String := do
  match ← rest with
  | '"' :: _ =>
      pass 1
      fromHere quotedText
  | '\'' :: _ =>
      pass 1
      fromHere literalText
  | _ => fail

/-- A text in one or three quotes of either kind. -/
def text : Scanner String := do
  match ← rest with
  | '"' :: '"' :: '"' :: _ =>
      pass 3
      skipFirstLineEnd
      fromHere (blockText false)
  | '\'' :: '\'' :: '\'' :: _ =>
      pass 3
      skipFirstLineEnd
      fromHere literalBlock
  | _ => lineText

/-- Characters of keys without quotes. -/
def isKeyChar (c : Char) : Bool :=
  c.isAlphanum || c == '-' || c == '_'

/-- One part of a key. -/
def simpleKey : Scanner Key := do
  let start ← place
  let name ← match ← rest with
    | '"' :: _ => lineText
    | '\'' :: _ => lineText
    | _ => do
        let chars ← takeWhile isKeyChar
        if chars.isEmpty then fail else pure (String.ofList chars)
  return ⟨name, ⟨start, ← place⟩⟩

/-- The parts of a key after the first one. -/
def moreKeys : Nat → Scanner (List Key)
  | 0 => fail
  | fuel + 1 => do
      match ← rest with
      | '.' :: _ =>
          pass 1
          blanks
          let key ← simpleKey
          blanks
          let others ← moreKeys fuel
          return key :: others
      | _ => return []

/-- A key of at least one part, with blanks around each. -/
def keyPath : Scanner (List Key) := do
  blanks
  let key ← simpleKey
  blanks
  let others ← moreKeys ((← rest).length + 1)
  if maxDepth < others.length + 1 then fail else return key :: others

def digitValue (c : Char) : Nat :=
  c.toNat - 48

def decimalNumber (digits : List Char) : Nat :=
  digits.foldl (fun n c => n * 10 + digitValue c) 0

def fixedDigits (count : Nat) : Scanner Nat := do
  let digits := (← rest).take count
  if digits.length = count && digits.all Char.isDigit then
    pass count
    return decimalNumber digits
  else fail

def date : Scanner Date := do
  let year ← fixedDigits 4
  char '-'
  let month ← fixedDigits 2
  char '-'
  let day ← fixedDigits 2
  let date : Date := ⟨year, month, day⟩
  if date.isValid then return date else fail

/-- Decimals of a second, of which nine count. -/
def nanoseconds : Scanner Nat := do
  match ← rest with
  | '.' :: _ =>
      pass 1
      let digits ← takeWhile Char.isDigit
      if digits.isEmpty then fail
      else
        let kept := digits.take 9
        return decimalNumber kept * Nat.pow 10 (9 - kept.length)
  | _ => return 0

def time : Scanner Time := do
  let hour ← fixedDigits 2
  char ':'
  let minute ← fixedDigits 2
  char ':'
  let second ← fixedDigits 2
  let nanosecond ← nanoseconds
  let time : Time := ⟨hour, minute, second, nanosecond⟩
  if time.isValid then return time else fail

def offset : Scanner Offset := do
  match ← rest with
  | c :: _ =>
      if c = 'Z' ∨ c = 'z' then
        pass 1
        return .zero
      else if c = '+' ∨ c = '-' then
        pass 1
        let hours ← fixedDigits 2
        char ':'
        let minutes ← fixedDigits 2
        if hours ≤ 23 && minutes ≤ 59 then return .minutes (c == '-') (hours * 60 + minutes)
        else fail
      else fail
  | [] => fail

/-- The time after a date, if a `T` or a blank and a time follow. -/
def timeOfDate : Scanner (Option (Time × Option Offset)) := do
  match ← rest with
  | c :: d :: _ =>
      if (c = 'T' ∨ c = 't' ∨ c = ' ') ∧ d.isDigit then
        pass 1
        let time ← time
        match ← rest with
        | c :: _ =>
            if c = 'Z' ∨ c = 'z' ∨ c = '+' ∨ c = '-' then
              return some (time, some (← offset))
            else return some (time, none)
        | [] => return some (time, none)
      else return none
  | _ => return none

def moment : Scanner Moment :=
  orElse
    (do
      let date ← date
      match ← timeOfDate with
      | some (time, offset) => return .both date time offset
      | none => return .date date)
    (Moment.time <$> time)

/-- Digits with single underscores between them. -/
def digitRun (isDigit : Char → Bool) : List Char → Option (List Char × List Char)
  | [] => none
  | [c] => if isDigit c then some ([c], []) else none
  | c :: '_' :: s =>
      if isDigit c then (digitRun isDigit s).map fun found => (c :: found.1, found.2) else none
  | c :: d :: s =>
      if isDigit c then
        if isDigit d then (digitRun isDigit (d :: s)).map fun found => (c :: found.1, found.2)
        else some ([c], d :: s)
      else none

def digits (isDigit : Char → Bool) : Scanner (List Char) :=
  fun cursor => (digitRun isDigit cursor.rest).map fun found =>
    (found.1, ⟨cursor.place + (cursor.rest.length - found.2.length), found.2⟩)

/-- A sign, if there is one; whether it is a minus. -/
def sign : Scanner Bool := do
  match ← rest with
  | '+' :: _ =>
      pass 1
      return false
  | '-' :: _ =>
      pass 1
      return true
  | _ => return false

/-- A whole number without needless zeros. -/
def wholeDigits : Scanner (List Char) := do
  match ← rest with
  | '0' :: _ =>
      pass 1
      return ['0']
  | _ => digits Char.isDigit

/-- An integer of 64 bits. -/
def checkedInteger (value : Int) : Scanner Scalar :=
  if -(Nat.pow 2 63 : Int) ≤ value ∧ value < Nat.pow 2 63 then pure (.integer value) else fail

/-- An integer in another base, after its two letters. -/
def integerOfBase (base : Nat) : Scanner Scalar := do
  pass 2
  let isDigit (c : Char) : Bool :=
    match hexValue? c with
    | some value => decide (value < base)
    | none => false
  let found ← digits isDigit
  checkedInteger (found.foldl (fun n c => n * base + (hexValue? c).getD 0) 0 : Nat)

def exponent : Scanner (Option Int) := do
  match ← rest with
  | c :: _ =>
      if c = 'e' ∨ c = 'E' then
        pass 1
        let negative ← sign
        let found ← digits Char.isDigit
        let value : Int := decimalNumber found
        return some (if negative then -value else value)
      else return none
  | [] => return none

/-- A number in decimal digits; a positive fraction must not be too large. -/
def decimalLiteral : Scanner Scalar := do
  let negative ← sign
  let whole ← wholeDigits
  let fraction ← match ← rest with
    | '.' :: _ => do
        pass 1
        some <$> digits Char.isDigit
    | _ => pure none
  match fraction, ← exponent with
  | none, none =>
      let value : Int := decimalNumber whole
      checkedInteger (if negative then -value else value)
  | fraction, scale =>
      let decimals := fraction.getD []
      let value := Binary64.ofDecimal negative (decimalNumber (whole ++ decimals))
        (scale.getD 0 - decimals.length)
      if value = .infinite false then fail else return .real value

/-- An infinity or no number. -/
def specialReal : Scanner Scalar := do
  let negative ← sign
  orElse
    (do
      word "inf"
      return .real (.infinite negative))
    (do
      word "nan"
      return .real .undefined)

def number : Scanner Scalar := do
  match ← rest with
  | '0' :: 'x' :: _ => integerOfBase 16
  | '0' :: 'o' :: _ => integerOfBase 8
  | '0' :: 'b' :: _ => integerOfBase 2
  | _ =>
      orElse ((fun found => .moment found.text) <$> moment)
        (orElse specialReal decimalLiteral)

/-- A value that holds no other value. -/
def scalar : Scanner Scalar := do
  match ← rest with
  | '"' :: _ => Scalar.text <$> text
  | '\'' :: _ => Scalar.text <$> text
  | 't' :: _ =>
      word "true"
      return .bool true
  | 'f' :: _ =>
      word "false"
      return .bool false
  | c :: _ =>
      if c.isDigit || c == '+' || c == '-' || c == 'i' || c == 'n' then number else fail
  | [] => fail

mutual

/-- A value with room for so many containers in it. -/
def value : Nat → Nat → Scanner Item
  | 0, _ => fail
  | fuel + 1, room => do
      let start ← place
      match ← rest with
      | '[' :: _ =>
          match room with
          | 0 => fail
          | room + 1 =>
              pass 1
              layout true
              let found ← arrayItems fuel room
              return .array found ⟨start, ← place⟩
      | '{' :: _ =>
          match room with
          | 0 => fail
          | room + 1 =>
              pass 1
              blanks
              match ← rest with
              | '}' :: _ =>
                  pass 1
                  return .braces [] ⟨start, ← place⟩
              | _ =>
                  let found ← assignments fuel room
                  match assembleBraces found with
                  | some entries => return .braces entries ⟨start, ← place⟩
                  | none => fail
      | _ =>
          let found ← scalar
          return .scalar found ⟨start, ← place⟩

/-- The items of an array and its closing bracket. -/
def arrayItems : Nat → Nat → Scanner (List Item)
  | 0, _ => fail
  | fuel + 1, room => do
      match ← rest with
      | ']' :: _ =>
          pass 1
          return []
      | _ =>
          let first ← value fuel room
          layout true
          match ← rest with
          | ',' :: _ =>
              pass 1
              layout true
              let others ← arrayItems fuel room
              return first :: others
          | ']' :: _ =>
              pass 1
              return [first]
          | _ => fail

/-- The assignments in braces and the closing brace. -/
def assignments : Nat → Nat → Scanner (List (List Key × Item))
  | 0, _ => fail
  | fuel + 1, room => do
      let path ← keyPath
      char '='
      blanks
      let item ← value fuel room
      blanks
      match ← rest with
      | ',' :: _ =>
          pass 1
          let others ← assignments fuel room
          return (path, item) :: others
      | '}' :: _ =>
          pass 1
          return [(path, item)]
      | _ => fail

end

/-- A header, after its brackets are known. -/
def headerPath (opening closing : String) : Scanner (List Key × Span) := do
  let start ← place
  word opening
  let path ← keyPath
  word closing
  return (path, ⟨start, ← place⟩)

/-- One statement and the rest of its line. -/
def statement : Scanner Statement := do
  let found ← match ← rest with
    | '[' :: '[' :: _ => do
        let header ← headerPath "[[" "]]"
        pure (.arrayHeader header.1 header.2)
    | '[' :: _ => do
        let header ← headerPath "[" "]"
        pure (.header header.1 header.2)
    | _ => do
        let path ← keyPath
        char '='
        blanks
        let item ← value (2 * (← rest).length + 2) maxDepth
        pure (.assign path item)
  restOfLine
  return found

def statements : Nat → Scanner (List Statement)
  | 0 => fail
  | fuel + 1 => do
      layout false
      match ← rest with
      | [] => return []
      | _ =>
          let first ← statement
          let others ← statements fuel
          return first :: others

/-- The statements of a text, after a byte order mark. -/
def statements? (text : String) : Option (List Statement) :=
  let start := Cursor.start text
  let cursor := match start.rest with
    | '\uFEFF' :: s => ⟨3, s⟩
    | _ => start
  (statements (text.length + 1) cursor).map Prod.fst

/-- The entries of the document that a text holds, if it is TOML. -/
def entries? (text : String) : Option Entries :=
  (statements? text).bind assemble

end Toml
end CodeSmells
