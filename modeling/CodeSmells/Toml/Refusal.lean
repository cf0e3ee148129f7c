import CodeSmells.Mismatch
import CodeSmells.Toml.Basic

/-!
# Why a document is refused

A text may not be TOML at all, or an item may have the wrong type.  The message
on an item shows its line with carets under the item.
-/

namespace CodeSmells
namespace Toml

inductive Refusal where
  | notToml
  | wrongType (found : Found) (expected : Expected) (span : Span)
deriving DecidableEq, Repr

/-- The outcome of reading an item. -/
abbrev Reading (α : Type) := Except Refusal α

/-- Fractions are written without exponents. -/
def realStyle : DecimalStyle :=
  ⟨none, none, ""⟩

def repeated (c : Char) (n : Nat) : String :=
  String.ofList (List.replicate n c)

/-- A line of the text with carets under a span that starts on it; carets count bytes. -/
def excerpt (text : String) (span : Span) : String :=
  let before := text.toUTF8.toList.take span.start
  let line := before.count 10
  let onLine := before.reverse.takeWhile (· != 10)
  let column := (onLine.filter fun b => b &&& 0xC0 != 0x80).length
  let content := (text.splitOn "\n").getD line ""
  let number := toString (line + 1)
  let gutter := repeated ' ' (number.length + 1) ++ "|"
  let carets := max 1 (min (span.stop - span.start) (content.utf8ByteSize - column))
  "TOML parse error at line " ++ number ++ ", column " ++ toString (column + 1) ++ "\n" ++
    gutter ++ "\n" ++
    number ++ " | " ++ content ++ "\n" ++
    gutter ++ repeated ' ' (column + 1) ++ repeated '^' carets ++ "\n"

def Refusal.message (text : String) : Refusal → String
  | notToml => "TOML parse error\n"
  | wrongType found expected span =>
      excerpt text span ++ mismatchMessage realStyle found expected ++ "\n"

end Toml
end CodeSmells
