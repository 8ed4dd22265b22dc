import Contestant.Number.Rounding

/-!
The shortest decimal that reads back as a given double.

A positive finite double is the nearest one for every real number between the midpoints to its
two neighbours, the midpoints included when its body is even.  For 1, 2, … 17 significant digits
the decimals just below and just above the value are tried; the first length at which one of them
lies in that interval wins, and of two that do the nearer, with a tie left to the caller.
-/

namespace Contestant

structure Decimal where
  digits : Nat
  exponent : Int
  deriving DecidableEq

/-- Where a decimal goes that lies exactly half-way between two of the same length. -/
inductive Tie
  | toEven
  | upward
  deriving DecidableEq

namespace Binary64

/-- Whether `value` units of `2^-1074` are fewer than `10^exponent`. -/
def belowPowerOfTen (value : Nat) (exponent : Int) : Bool :=
  if 0 ≤ exponent then decide (value < unitsPerOne * Nat.pow 10 exponent.toNat)
  else decide (value * Nat.pow 10 (-exponent).toNat < unitsPerOne)

/-- How many digits the integer part of `value` units has, counted below zero for the zeros that
follow the decimal point: the least `k` with the value under `10^k`.  The binary logarithm is
within two of it. -/
def decimalPlaces (value : Nat) : Int :=
  let guess := ((value.log2 : Int) - 1074) * 30103 / 100000
  let tries := [guess - 1, guess, guess + 1, guess + 2]
  (tries.find? (belowPowerOfTen value)).getD (guess + 3)

def powerOfTen (exponent : Int) : Nat × Nat :=
  if 0 ≤ exponent then (Nat.pow 10 exponent.toNat, 1) else (1, Nat.pow 10 (-exponent).toNat)

/-- Whether the double with this body is the nearest one to `digits * 10^exponent`. -/
def readsBack (body digits : Nat) (exponent : Int) : Bool :=
  let (num, den) := powerOfTen exponent
  let value := magnitudeOf body
  let low := (magnitudeOf (body - 1) + value) * den
  let high := (value + magnitudeOf (body + 1)) * den
  let candidate := 2 * digits * num * unitsPerOne
  if body % 2 = 0 then decide (low ≤ candidate) && decide (candidate ≤ high)
  else decide (low < candidate) && decide (candidate < high)

/-- A decimal of at most `length` significant digits that reads back as the double with this
body, if there is one; `places` is the number of places of its integer part. -/
def decimalOfLength? (tie : Tie) (body : Nat) (places : Int) (length : Nat) : Option Decimal :=
  let exponent := places - length
  let (num, den) := powerOfTen exponent
  let top := magnitudeOf body * den
  let step := num * unitsPerOne
  let below := top / step
  let twice := 2 * (top % step)
  let upperNearer :=
    decide (step < twice) ||
      (decide (twice = step) && (tie = .upward || decide (below % 2 = 1)))
  let fitsBelow := decide (0 < below) && readsBack body below exponent
  let fitsAbove := readsBack body (below + 1) exponent
  if fitsBelow && fitsAbove then
    some ⟨if upperNearer then below + 1 else below, exponent⟩
  else if fitsBelow then some ⟨below, exponent⟩
  else if fitsAbove then some ⟨below + 1, exponent⟩
  else none

/-- The shortest decimal for a positive finite body.  Seventeen digits always suffice. -/
def shortest (tie : Tie) (body : Nat) : Decimal :=
  let places := decimalPlaces (magnitudeOf body)
  ((List.range' 1 17).findSome? (decimalOfLength? tie body places)).getD
    ⟨magnitudeOf body, 0⟩

end Binary64
end Contestant
