/-!
# Styled text

A text in pieces, some with a style.  With colors a styled piece is put between
an opening sequence and a reset; without colors a style has no effect.
-/

namespace CodeSmells

inductive Style where
  | bold
  | dimmed
  | underlined
  | yellow
  | boldGreen
  | boldUnderlined
deriving DecidableEq, Repr

/-- The numbers of a style. -/
def Style.code : Style → String
  | bold => "1"
  | dimmed => "2"
  | underlined => "4"
  | yellow => "33"
  | boldGreen => "1;32"
  | boldUnderlined => "1;4"

/-- The sequence that opens a style. -/
def Style.opening (style : Style) : List Char :=
  '\x1b' :: '[' :: style.code.toList ++ ['m']

/-- The sequence that ends all styles. -/
def resetSequence : List Char :=
  ['\x1b', '[', '0', 'm']

/-- Open a style again wherever the text itself resets it. -/
def reopen (opening : List Char) : List Char → List Char
  | '\x1b' :: '[' :: '0' :: 'm' :: rest => resetSequence ++ opening ++ reopen opening rest
  | c :: rest => c :: reopen opening rest
  | [] => []

/-- A piece of text with a style or without. -/
structure StyledPiece where
  style : Option Style
  text : String
deriving DecidableEq, Repr

namespace StyledPiece

def plain (text : String) : StyledPiece :=
  ⟨none, text⟩

def styled (style : Style) (text : String) : StyledPiece :=
  ⟨some style, text⟩

/-- The characters of a piece. -/
def render (colors : Bool) (piece : StyledPiece) : List Char :=
  match piece.style, colors with
  | some style, true =>
      style.opening ++ reopen style.opening piece.text.toList ++ resetSequence
  | _, _ => piece.text.toList

end StyledPiece

def renderPieces (colors : Bool) (pieces : List StyledPiece) : String :=
  String.ofList (pieces.flatMap (StyledPiece.render colors))

end CodeSmells
