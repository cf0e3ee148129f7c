/-!
# Glob patterns

A glob is a list of tokens.  `Glob.ofText?` reads one from its text, and
`Glob.accepts` decides whether a text is in its language:

* `?` stands for one character and `*` for any sequence of characters;
* `**` stands for any sequence of directories, so for the empty text or a text
  that ends in `/`; at the end of the glob it stands for any text;
* `[...]` and `[!...]` stand for one character in, or not in, a set;
* any other character stands for itself.

Every character counts alike: a `/` and a leading dot need no special care, and
case matters.  Ill-formed text has no glob.
-/

namespace CodeSmells

/-- Holds when some suffix of the text satisfies `p`. -/
def anySuffix (p : List Char → Bool) : List Char → Bool
  | [] => p []
  | c :: s => p (c :: s) || anySuffix p s

/-- Holds when some suffix that follows a `sep` satisfies `p`. -/
def anySuffixAfter (sep : Char) (p : List Char → Bool) : List Char → Bool
  | [] => false
  | c :: s => (c == sep && p s) || anySuffixAfter sep p s

namespace Glob

/-- One entry of a character set. -/
inductive Member where
  | single (c : Char)
  | range (low high : Char)
deriving DecidableEq, Repr

/-- A range holds its two ends; an inverted range holds nothing. -/
def Member.holds (c : Char) : Member → Bool
  | single d => c == d
  | range low high => decide (low ≤ c) && decide (c ≤ high)

/-- The entries written in a set: `x-y` is a range, read from the left. -/
def Member.ofText : List Char → List Member
  | low :: '-' :: high :: rest => range low high :: ofText rest
  | c :: rest => single c :: ofText rest
  | [] => []

/-- One step of a glob. -/
inductive Token where
  | literal (c : Char)
  | anyChar
  | oneOf (members : List Member)
  | noneOf (members : List Member)
  | sequence
  | directories
deriving DecidableEq, Repr

/-- The single characters that a token stands for. -/
def Token.admits (c : Char) : Token → Bool
  | literal d => c == d
  | anyChar => true
  | oneOf members => members.any (Member.holds c)
  | noneOf members => !members.any (Member.holds c)
  | sequence => false
  | directories => false

/-- Where a reader of glob text stands. -/
inductive Place where
  /-- Between tokens; `edge` holds at the start and after a `/`. -/
  | outside (edge : Bool)
  /-- Inside a set, of which `read` has been seen. -/
  | inSet (negated : Bool) (read : List Char)

/--
The tokens of glob text.  The character after `[` or `[!` is a member whatever
it is, and the set ends at the next `]`.  A `**` stands alone between slashes.
-/
def tokens? : Place → List Char → Option (List Token)
  | .outside _, [] => some []
  | .outside _, '?' :: s => (tokens? (.outside false) s).map (.anyChar :: ·)
  | .outside _, '*' :: '*' :: '*' :: _ => none
  | .outside true, ['*', '*'] => some [.directories]
  | .outside true, '*' :: '*' :: '/' :: s =>
      (tokens? (.outside true) s).map (.directories :: ·)
  | .outside _, '*' :: '*' :: _ => none
  | .outside _, '*' :: s => (tokens? (.outside false) s).map (.sequence :: ·)
  | .outside _, '[' :: '!' :: c :: s => tokens? (.inSet true [c]) s
  | .outside _, ['[', '!'] => none
  | .outside _, '[' :: c :: s => tokens? (.inSet false [c]) s
  | .outside _, ['['] => none
  | .outside _, c :: s => (tokens? (.outside (c == '/')) s).map (.literal c :: ·)
  | .inSet _ _, [] => none
  | .inSet negated read, ']' :: s =>
      let members := Member.ofText read
      let token := if negated then Token.noneOf members else Token.oneOf members
      (tokens? (.outside false) s).map (token :: ·)
  | .inSet negated read, c :: s => tokens? (.inSet negated (read ++ [c])) s

/-- Whether the whole text is in the language of the tokens. -/
def accepts : List Token → List Char → Bool
  | [], s => s.isEmpty
  | [.directories], _ => true
  | .directories :: rest, s => accepts rest s || anySuffixAfter '/' (accepts rest) s
  | .sequence :: rest, s => anySuffix (accepts rest) s
  | _ :: _, [] => false
  | token :: rest, c :: s => token.admits c && accepts rest s

end Glob

/-- A well-formed glob. -/
structure Glob where
  tokens : List Glob.Token
deriving DecidableEq, Repr

namespace Glob

/-- The glob that a text writes, if it is well-formed. -/
def ofText? (text : String) : Option Glob :=
  (tokens? (.outside true) text.toList).map Glob.mk

end Glob

end CodeSmells
