/-!
# Log lines

A record has a level, the part of the program that it comes from, and a text.
A `LogFilter` is read from a list of directives: a level for everything, or a
level for the records of one part.  The most specific directive decides, and
without a directive that fits nothing is shown.
-/

namespace CodeSmells

/-- Levels from the gravest to the most detailed. -/
inductive LogLevel where
  | error
  | warn
  | info
  | debug
  | trace
deriving DecidableEq, Repr

namespace LogLevel

def rank : LogLevel → Nat
  | error => 1
  | warn => 2
  | info => 3
  | debug => 4
  | trace => 5

/-- The name that a log line starts with. -/
def label : LogLevel → String
  | error => "ERROR"
  | warn => "WARN"
  | info => "INFO"
  | debug => "DEBUG"
  | trace => "TRACE"

end LogLevel

/-- A record of the log. -/
structure LogRecord where
  level : LogLevel
  origin : String
  text : String
deriving DecidableEq, Repr

def LogRecord.line (record : LogRecord) : String :=
  record.level.label ++ " " ++ record.text ++ "\n"

/-- A character of a log line; those that steer a terminal are written by their code. -/
def logChar (c : Char) : String :=
  let hex := String.ofList (Nat.toDigits 16 c.toNat)
  if c.toNat = 7 ∨ c.toNat = 8 ∨ c.toNat = 12 then "\\x0" ++ hex
  else if c.toNat = 0x1b ∨ c.toNat = 0x7f then "\\x" ++ hex
  else if 0x80 ≤ c.toNat ∧ c.toNat ≤ 0x9f then "\\u\x7b" ++ hex ++ "\x7d"
  else String.ofList [c]

def logText (text : String) : String :=
  String.join (text.toList.map logChar)

/-- A directive: the start of the origins it is for, and the highest rank it shows. -/
structure LogDirective where
  origin : Option String
  rank : Nat
deriving DecidableEq, Repr

namespace LogDirective

/-- The highest rank that a level word shows. -/
def rankOf? (word : String) : Option Nat :=
  ([("off", 0), ("error", 1), ("warn", 2), ("info", 3), ("debug", 4), ("trace", 5),
    ("0", 0), ("1", 1), ("2", 2), ("3", 3), ("4", 4), ("5", 5)] : List (String × Nat)).lookup
    word.toLower

/-- Characters of origins. -/
def isOriginChar (c : Char) : Bool :=
  c.isAlphanum || c == '_' || c == ':' || c == '-'

/-- A directive from its text; an origin without a level shows everything. -/
def ofText? (text : String) : Option LogDirective :=
  match rankOf? text with
  | some rank => some ⟨none, rank⟩
  | none =>
      let origin := text.toList.takeWhile isOriginChar
      if origin.isEmpty then none
      else
        match text.toList.dropWhile isOriginChar with
        | [] => some ⟨some (String.ofList origin), 5⟩
        | ['='] => some ⟨some (String.ofList origin), 5⟩
        | '=' :: level =>
            (rankOf? (String.ofList level)).map fun rank => ⟨some (String.ofList origin), rank⟩
        | _ => none

/-- Whether a directive is for the records of an origin. -/
def isFor (origin : String) (directive : LogDirective) : Bool :=
  match directive.origin with
  | none => true
  | some start => start.toList.isPrefixOf origin.toList

/-- How specific a directive is. -/
def specificity (directive : LogDirective) : Nat :=
  match directive.origin with
  | none => 0
  | some start => start.utf8ByteSize + 1

end LogDirective

/-- The directives in force. -/
structure LogFilter where
  directives : List LogDirective
deriving DecidableEq, Repr

namespace LogFilter

/-- Warnings and errors. -/
def default : LogFilter :=
  ⟨[⟨none, 2⟩]⟩

/-- The filter of a list of directives; an empty list shows errors only. -/
def ofText? (text : String) : Option LogFilter :=
  let words := (text.splitOn ",").filter fun word => !word.isEmpty
  if words.isEmpty then some ⟨[⟨none, 1⟩]⟩
  else (words.mapM LogDirective.ofText?).map LogFilter.mk

/-- The filter of a setting; without one that makes sense, the default. -/
def ofSetting (setting : Option String) : LogFilter :=
  (setting.bind ofText?).getD default

/-- The more specific of two directives; of equals the later one. -/
def preferred (best : Option LogDirective) (next : LogDirective) : Option LogDirective :=
  match best with
  | none => some next
  | some old => if next.specificity < old.specificity then some old else some next

/-- The directive that decides on an origin. -/
def deciding? (filter : LogFilter) (origin : String) : Option LogDirective :=
  (filter.directives.filter (LogDirective.isFor origin)).foldl preferred none

def shows (filter : LogFilter) (record : LogRecord) : Bool :=
  match filter.deciding? record.origin with
  | none => false
  | some directive => decide (record.level.rank ≤ directive.rank)

end LogFilter

end CodeSmells
