/-!
# Binary fractions of 64 bits

A `Binary64` is a sign and a number `significand * 2 ^ exponent` with at most 53
bits, an infinity, or no number.  Results that need more bits are rounded to
the nearest fraction, and a half goes to the even significand.
-/

namespace CodeSmells

/-- The whole number nearest to a quotient; a half goes to the even one. -/
def nearestEven (num den : Nat) : Nat :=
  let quotient := num / den
  let rest := num % den
  if 2 * rest < den ∨ (2 * rest = den ∧ quotient % 2 = 0) then quotient else quotient + 1

/-- A floating-point number of 64 bits. -/
inductive Binary64 where
  | finite (negative : Bool) (significand : Nat) (exponent : Int)
  | infinite (negative : Bool)
  | undefined
deriving DecidableEq, Repr, Inhabited

namespace Binary64

def minExponent : Int := -1074

def maxExponent : Int := 971

/-- The numerator and the denominator of `significand * 2 ^ exponent`. -/
def ratio (significand : Nat) (exponent : Int) : Nat × Nat :=
  (significand * Nat.pow 2 exponent.toNat, Nat.pow 2 (-exponent).toNat)

/--
The significand and exponent nearest to a quotient.  The significand has 53
bits unless the exponent is the least one.
-/
def round (num den : Nat) : Nat × Int :=
  if num = 0 then (0, minExponent)
  else
    let guess := max minExponent ((num.log2 : Int) - den.log2 - 53)
    let atExponent (e : Int) : Nat × Nat :=
      (num * Nat.pow 2 (-e).toNat, den * Nat.pow 2 e.toNat)
    let fine := atExponent guess
    let exponent := if Nat.pow 2 53 ≤ fine.1 / fine.2 then guess + 1 else guess
    let scaled := atExponent exponent
    let significand := nearestEven scaled.1 scaled.2
    if significand = Nat.pow 2 53 then (Nat.pow 2 52, exponent + 1) else (significand, exponent)

/-- The number nearest to a signed quotient. -/
def ofRatio (negative : Bool) (num den : Nat) : Binary64 :=
  let rounded := round num den
  if maxExponent < rounded.2 then infinite negative
  else finite negative rounded.1 rounded.2

def ofNat (n : Nat) : Binary64 :=
  ofRatio false n 1

/--
The number nearest to `digits * 10 ^ scale`.  Scales far outside the range give
an infinity or zero without a look at the power of ten.
-/
def ofDecimal (negative : Bool) (digits : Nat) (scale : Int) : Binary64 :=
  if digits = 0 ∨ scale < -400 - (digits.log2 : Int) then finite negative 0 minExponent
  else if 400 < scale then infinite negative
  else ofRatio negative (digits * Nat.pow 10 scale.toNat) (Nat.pow 10 (-scale).toNat)

def neg : Binary64 → Binary64
  | finite negative significand exponent => finite (!negative) significand exponent
  | infinite negative => infinite (!negative)
  | undefined => undefined

def isZero : Binary64 → Bool
  | finite _ significand _ => significand == 0
  | _ => false

/-- The magnitude of a finite number times a power of ten that is itself rounded. -/
def timesPowerOfTen (x : Binary64) (power : Nat) : Binary64 :=
  match x, ofNat (Nat.pow 10 power) with
  | finite negative m e, finite _ m' e' =>
      let product := ratio (m * m') (e + e')
      ofRatio negative product.1 product.2
  | finite negative _ _, _ => infinite negative
  | other, _ => other

/-- The magnitude of a finite number divided by a power of ten that is itself rounded. -/
def overPowerOfTen (x : Binary64) (power : Nat) : Binary64 :=
  match x, ofNat (Nat.pow 10 power) with
  | finite negative m e, finite _ m' e' =>
      let upper := ratio m (e - e')
      ofRatio negative upper.1 (upper.2 * m')
  | finite negative _ _, _ => finite negative 0 minExponent
  | other, _ => other

end Binary64

end CodeSmells
