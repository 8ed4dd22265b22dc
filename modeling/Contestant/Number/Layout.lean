import Contestant.Number.Shortest

/-!
Writing doubles as decimal text.

The digits are the shortest that read back.  What differs between formats is where the decimal
point goes and how the special values are spelled, and each format states that in one `Layout`.
-/

namespace Contestant

/-- The choices of one decimal format. -/
structure Layout where
  /-- Whether a number of this decimal exponent (`0` for one digit before the point) is written
  out in full; otherwise it is written with an explicit exponent. -/
  positional : Int → Bool
  /-- What follows the digits of a whole number written out in full. -/
  wholeEnding : String
  tie : Tie
  notANumber : String
  infinite : String

namespace Layout

/-- The format of messages: every number is written out in full, a whole number without a
fraction. -/
def plain : Layout where
  positional _ := true
  wholeEnding := ""
  tie := .upward
  notANumber := "NaN"
  infinite := "inf"

/-- The format of documents: in full from `10^-5` to below `10^16` and always with a fraction
there; outside with an exponent.  Values that are not numbers have no spelling but `null`. -/
def document : Layout where
  positional e := decide (-5 ≤ e) && decide (e < 16)
  wholeEnding := ".0"
  tie := .toEven
  notANumber := "null"
  infinite := "null"

/-- Drops the zeros that end a digit text, which its place value makes up for. -/
def trimZeros (digits : List Char) : List Char :=
  (digits.reverse.dropWhile (· = '0')).reverse

/-- `digits` with the decimal point after the first `places` of them, filled with zeros on either
side as needed. -/
def writeOut (layout : Layout) (digits : List Char) (places : Int) : List Char :=
  if places ≤ 0 then
    '0' :: '.' :: (List.replicate (-places).toNat '0' ++ digits)
  else if digits.length ≤ places.toNat then
    digits ++ List.replicate (places.toNat - digits.length) '0' ++ layout.wholeEnding.toList
  else
    digits.take places.toNat ++ '.' :: digits.drop places.toNat

/-- One digit, the others behind a point, and the signed decimal exponent. -/
def writeScientific (digits : List Char) (exponent : Int) : List Char :=
  let mantissa := match digits with
    | first :: second :: rest => first :: '.' :: second :: rest
    | short => short
  let sign := if exponent < 0 then '-' else '+'
  mantissa ++ 'e' :: sign :: Nat.toDigits 10 exponent.natAbs

def writeDecimal (layout : Layout) (d : Decimal) : List Char :=
  let written := Nat.toDigits 10 d.digits
  let places := (written.length : Int) + d.exponent
  let digits := trimZeros written
  if layout.positional (places - 1) then layout.writeOut digits places
  else writeScientific digits (places - 1)

def write (layout : Layout) (x : Binary64) : String :=
  if x.isNaN then layout.notANumber
  else if x.isInfinite && layout.infinite = layout.notANumber then layout.infinite
  else
    let sign := if x.sign then "-" else ""
    if x.isInfinite then sign ++ layout.infinite
    else if x.isZero then sign ++ "0" ++ layout.wholeEnding
    else sign ++ String.ofList (layout.writeDecimal (Binary64.shortest layout.tie x.body))

end Layout
end Contestant
