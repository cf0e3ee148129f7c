import CodeSmells.Json.Basic

/-!
# Number literals

A literal is a number as it was written.  Its value is an integer when it is
written as one and fits 64 bits, and a binary fraction otherwise: the digits
that fit 64 bits are gathered to a whole number, which is then multiplied or
divided by a power of ten.
-/

namespace CodeSmells
namespace Json

/-- A number as it was written; digits are numbers below ten. -/
structure Literal where
  negative : Bool
  whole : List Nat
  /-- The digits after the point; none when there is no point. -/
  fraction : List Nat
  /-- Whether the exponent is negative, and its digits. -/
  exponent : Option (Bool × List Nat)
deriving DecidableEq, Repr

namespace Literal

/-- Append digits while the number stays below `bound`; the rest is what did not fit. -/
def gather (bound : Nat) : Nat → List Nat → Nat × List Nat
  | n, [] => (n, [])
  | n, d :: rest => if n * 10 + d < bound then gather bound (n * 10 + d) rest else (n, d :: rest)

/-- Whether the literal has neither a point nor an exponent. -/
def isWhole (literal : Literal) : Bool :=
  literal.fraction.isEmpty && literal.exponent.isNone

/-- Divide by a power of ten, in steps of at most 308 places. -/
def scaleDown (x : Binary64) (places : Nat) : Binary64 :=
  if x.isZero then x
  else if places ≤ 308 then x.overPowerOfTen places
  else scaleDown (x.overPowerOfTen 308) (places - 308)
termination_by places

/-- The magnitude `significand * 10 ^ scale`, unless it is too large. -/
def magnitude? (significand : Nat) (scale : Int) : Option Binary64 :=
  let x := Binary64.ofNat significand
  if scale < 0 then some (scaleDown x scale.natAbs)
  else if scale ≤ 308 then
    match x.timesPowerOfTen scale.natAbs with
    | .infinite _ => none
    | product => some product
  else if significand = 0 then some x
  else none

def signed (negative : Bool) (x : Binary64) : Json :=
  .real (if negative then x.neg else x)

/-- The value of an integer of 64 bits; zero with a sign is a fraction. -/
def wholeValue (negative : Bool) (significand : Nat) : Json :=
  if !negative then .integer significand
  else if significand = 0 ∨ Nat.pow 2 63 < significand then
    signed true (Binary64.ofNat significand)
  else .integer (-(significand : Int))

/--
The value of a literal.  A number that is too large is noticed at its end, or
once its exponent passes 31 bits: the error is how many digits then remain.
-/
def value (literal : Literal) : Except Nat Json :=
  let whole := gather (Nat.pow 2 64) 0 literal.whole
  if literal.isWhole ∧ whole.2 = [] then .ok (wholeValue literal.negative whole.1)
  else
    let all := gather (Nat.pow 2 64) whole.1 literal.fraction
    let scale : Int := whole.2.length - (literal.fraction.length - all.2.length : Nat)
    let finish (scale : Int) : Except Nat Json :=
      match magnitude? all.1 scale with
      | some x => .ok (signed literal.negative x)
      | none => .error 0
    match literal.exponent with
    | none => finish scale
    | some (down, digits) =>
        let exponent := gather (Nat.pow 2 31) 0 digits
        match exponent.2 with
        | [] => finish (if down then scale - exponent.1 else scale + exponent.1)
        | _ :: unread =>
            if all.1 ≠ 0 ∧ !down then .error unread.length
            else .ok (signed literal.negative (Binary64.ofNat 0))

end Literal

end Json
end CodeSmells
