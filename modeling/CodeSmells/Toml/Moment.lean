/-!
# Dates and times

The dates and times of TOML: a date, a time, or both with or without an offset.
`Moment.text` writes one in its normal form.
-/

namespace CodeSmells
namespace Toml

structure Date where
  year : Nat
  month : Nat
  day : Nat
deriving DecidableEq, Repr

structure Time where
  hour : Nat
  minute : Nat
  second : Nat
  nanosecond : Nat
deriving DecidableEq, Repr

/-- The distance from universal time. -/
inductive Offset where
  | zero
  | minutes (west : Bool) (count : Nat)
deriving DecidableEq, Repr

inductive Moment where
  | date (date : Date)
  | time (time : Time)
  | both (date : Date) (time : Time) (offset : Option Offset)
deriving DecidableEq, Repr

/-- A number with zeros in front. -/
def padded (width n : Nat) : String :=
  let digits := toString n
  String.ofList (List.replicate (width - digits.length) '0') ++ digits

def daysInMonth (year month : Nat) : Nat :=
  if month = 2 then
    if year % 4 = 0 ∧ (year % 100 ≠ 0 ∨ year % 400 = 0) then 29 else 28
  else if month = 4 ∨ month = 6 ∨ month = 9 ∨ month = 11 then 30
  else 31

def Date.isValid (date : Date) : Bool :=
  1 ≤ date.month && date.month ≤ 12 && 1 ≤ date.day &&
    date.day ≤ daysInMonth date.year date.month

/-- Whether a time is on the clock; a minute may have a leap second. -/
def Time.isValid (time : Time) : Bool :=
  time.hour ≤ 23 && time.minute ≤ 59 && time.second ≤ 60

def Date.text (date : Date) : String :=
  padded 4 date.year ++ "-" ++ padded 2 date.month ++ "-" ++ padded 2 date.day

/-- The normal form of a time, with as many decimals as are not zero. -/
def Time.text (time : Time) : String :=
  let decimals := (padded 9 time.nanosecond).toList.reverse.dropWhile (· == '0')
  padded 2 time.hour ++ ":" ++ padded 2 time.minute ++ ":" ++ padded 2 time.second ++
    (if decimals.isEmpty then "" else "." ++ String.ofList decimals.reverse)

def Offset.text : Offset → String
  | zero => "Z"
  | minutes west count =>
      (if west && count ≠ 0 then "-" else "+") ++
        padded 2 (count / 60) ++ ":" ++ padded 2 (count % 60)

def Moment.text : Moment → String
  | date day => day.text
  | time clock => clock.text
  | both day clock offset =>
      day.text ++ "T" ++ clock.text ++ (match offset with
        | some offset => offset.text
        | none => "")

end Toml
end CodeSmells
