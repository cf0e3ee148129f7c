/-!
# Places in a text

A `Cursor` is a place in a text, counted in bytes, and the characters from
there on.
-/

namespace CodeSmells

/-- A place in bytes and the text from there on. -/
structure Cursor where
  place : Nat
  rest : List Char

def byteCount (cs : List Char) : Nat :=
  cs.foldr (fun c n => c.utf8Size + n) 0

namespace Cursor

def start (text : String) : Cursor :=
  ⟨0, text.toList⟩

/-- Pass over so many characters of one byte. -/
def pass (cursor : Cursor) (n : Nat) : Cursor :=
  ⟨cursor.place + n, cursor.rest.drop n⟩

/-- Pass over characters of any size. -/
def passWhile (cursor : Cursor) (p : Char → Bool) : Cursor :=
  ⟨cursor.place + byteCount (cursor.rest.takeWhile p), cursor.rest.dropWhile p⟩

end Cursor

def hexValue? (c : Char) : Option Nat :=
  if c.isDigit then some (c.toNat - 48)
  else if 'a' ≤ c ∧ c ≤ 'f' then some (c.toNat - 87)
  else if 'A' ≤ c ∧ c ≤ 'F' then some (c.toNat - 55)
  else none

end CodeSmells
