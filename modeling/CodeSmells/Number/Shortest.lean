import CodeSmells.Number.Binary64

/-!
# Shortest decimals

The decimal of a binary fraction is the one with the fewest digits that reads
back as the fraction, and of those the nearest.  A fraction is read back from
every decimal in the interval of numbers that round to it, so for each count of
digits only the two neighbours on that decimal grid have to be tried.

A `DecimalStyle` lays the digits out.
-/

namespace CodeSmells

/-- The number `digits * 10 ^ scale`. -/
structure Decimal where
  digits : Nat
  scale : Int
deriving DecidableEq, Repr, Inhabited

namespace Decimal

/-- Count of decimal digits; zero has none. -/
def digitCount (n : Nat) : Nat :=
  if n = 0 then 0 else (Nat.toDigits 10 n).length

/-- The place of the first digit: the quotient is below `10 ^ place`, but not its tenth. -/
def place (num den : Nat) : Int :=
  if den ≤ num then digitCount (num / den)
  else 1 - (digitCount ((den + num - 1) / num - 1) : Int)

/-- Drop zeros at the end, at most `fuel` of them. -/
def strip : Nat → Decimal → Decimal
  | 0, d => d
  | fuel + 1, d =>
      if d.digits ≠ 0 ∧ d.digits % 10 = 0 then strip fuel ⟨d.digits / 10, d.scale + 1⟩ else d

/--
The nearer of two neighbours on the grid of `10 ^ scale` that lie between the
bounds.  All numbers are in units of `1 / den`; `closed` admits the bounds.
-/
def gridHit? (low value high den : Nat) (closed : Bool) (scale : Int) : Option Decimal :=
  let up := Nat.pow 10 (-scale).toNat
  let step := den * Nat.pow 10 scale.toNat
  let below := value * up / step
  let inside (n : Nat) : Bool :=
    if closed then decide (low * up ≤ n * step) && decide (n * step ≤ high * up)
    else decide (low * up < n * step) && decide (n * step < high * up)
  let gapBelow := value * up - below * step
  let gapAbove := (below + 1) * step - value * up
  let preferBelow := gapBelow < gapAbove || (gapBelow == gapAbove && below % 2 == 0)
  match inside below, inside (below + 1) with
  | true, true => some ⟨if preferBelow then below else below + 1, scale⟩
  | true, false => some ⟨below, scale⟩
  | false, true => some ⟨below + 1, scale⟩
  | false, false => none

/-- The shortest decimal that rounds to `significand * 2 ^ exponent`, which is not zero. -/
def shortest (significand : Nat) (exponent : Int) : Decimal :=
  let narrow := significand = Nat.pow 2 52 ∧ Binary64.minExponent < exponent
  let unit := Binary64.ratio 1 (exponent - 2)
  let low := (4 * significand - if narrow then 1 else 2) * unit.1
  let value := 4 * significand * unit.1
  let high := (4 * significand + 2) * unit.1
  let top := place value unit.2
  let hit := (List.range 17).findSome? fun (n : Nat) =>
    gridHit? low value high unit.2 (significand % 2 == 0) (top - (n + 1))
  strip 20 (hit.getD ⟨value, 0⟩)

end Decimal

/-- How the digits of a decimal are laid out. -/
structure DecimalStyle where
  /-- Numbers below `10 ^ positionalBelow` are written without an exponent. -/
  positionalBelow : Option Int
  /-- Numbers from `10 ^ positionalFrom` on are written without an exponent. -/
  positionalFrom : Option Int
  /-- What stands before an exponent that is not negative. -/
  exponentPlus : String

namespace DecimalStyle

def zeros (n : Nat) : String :=
  String.ofList (List.replicate n '0')

/-- Positional notation with at least one digit on either side of the point. -/
def positional (d : Decimal) : String :=
  let text := toString d.digits
  if 0 ≤ d.scale then text ++ zeros d.scale.toNat ++ ".0"
  else
    let fraction := (-d.scale).toNat
    let padded := (zeros (fraction + 1 - text.length) ++ text).toList
    let cut := padded.length - fraction
    String.ofList (padded.take cut) ++ "." ++ String.ofList (padded.drop cut)

/-- One digit, the others after a point, and the exponent. -/
def scientific (style : DecimalStyle) (d : Decimal) : String :=
  let text := (toString d.digits).toList
  let exponent := d.scale + (text.length - 1 : Nat)
  let fraction := if text.length ≤ 1 then "" else "." ++ String.ofList (text.drop 1)
  let sign := if exponent < 0 then "-" else style.exponentPlus
  String.ofList (text.take 1) ++ fraction ++ "e" ++ sign ++ toString exponent.natAbs

/-- The text of a decimal that is not zero. -/
def decimal (style : DecimalStyle) (d : Decimal) : String :=
  let place := d.scale + Decimal.digitCount d.digits
  let low := match style.positionalFrom with
    | none => true
    | some least => decide (least < place)
  let high := match style.positionalBelow with
    | none => true
    | some bound => decide (place ≤ bound)
  if low && high then positional d else style.scientific d

def text (style : DecimalStyle) : Binary64 → String
  | .undefined => "NaN"
  | .infinite negative => if negative then "-inf" else "inf"
  | .finite negative significand exponent =>
      let sign := if negative then "-" else ""
      if significand = 0 then sign ++ "0.0"
      else sign ++ style.decimal (Decimal.shortest significand exponent)

end DecimalStyle

end CodeSmells
