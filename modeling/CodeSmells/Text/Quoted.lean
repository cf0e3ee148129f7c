import CodeSmells.Text.Unprintable

/-!
# Text shown in quotes

Messages show a text in double quotes.  Quotes and backslashes get a backslash,
a few control characters have a letter, and any other character that does not
print is written by its code point, as in `\u{301}`.
-/

namespace CodeSmells
namespace Text

/-- The hexadecimal digits of a number. -/
def hexadecimal (n : Nat) : String :=
  String.ofList (Nat.toDigits 16 n)

/-- One character inside the quotes. -/
def showChar (c : Char) : String :=
  if c = '"' then "\\\""
  else if c = '\\' then "\\\\"
  else if c = '\n' then "\\n"
  else if c = '\r' then "\\r"
  else if c = '\t' then "\\t"
  else if c.toNat = 0 then "\\0"
  else if isUnprintable c then "\\u\x7b" ++ hexadecimal c.toNat ++ "\x7d"
  else String.ofList [c]

def showQuoted (text : String) : String :=
  "\"" ++ String.join (text.toList.map showChar) ++ "\""

end Text
end CodeSmells
