import CodeSmells.Text.LetterCase

/-!
# Lowercase text

The full lowercase form of a text.  A letter has one lowercase form, with two
exceptions: the capital I with a dot becomes two characters, and the capital
sigma has a form of its own at the end of a word.
-/

namespace CodeSmells
namespace Text

/-- The lowercase form of a character, whatever stands around it. -/
def lowerChar (c : Char) : List Char :=
  if c.toNat < 128 then [c.toLower]
  else if c.toNat = 0x130 then ['i', Char.ofNat 0x307]
  else
    match lowercaseRuns.find? fun (first, last, step, _) =>
        decide (first ≤ c.toNat) && decide (c.toNat ≤ last) && (c.toNat - first) % step == 0 with
    | some (_, _, _, distance) => [Char.ofNat ((c.toNat : Int) + distance).toNat]
    | none => [c]

/-- Whether a letter with case comes first, but for characters that do not count. -/
def meetsLetter (cs : List Char) : Bool :=
  match cs.find? fun c => !isCaseIgnorable c with
  | some c => isCased c
  | none => false

/-- The lowercase form of characters; `before` holds those that were passed, the last one first. -/
def lowerFrom (before : List Char) : List Char → List Char
  | [] => []
  | c :: rest =>
      let lower :=
        if c.toNat = 0x3A3 then
          [Char.ofNat (if meetsLetter before && !meetsLetter rest then 0x3C2 else 0x3C3)]
        else lowerChar c
      lower ++ lowerFrom (c :: before) rest

def lowercase (text : String) : String :=
  String.ofList (lowerFrom [] text.toList)

end Text
end CodeSmells
