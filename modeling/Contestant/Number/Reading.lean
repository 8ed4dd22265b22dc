import Contestant.Number.Rounding

/-!
Reading numbers from text, as configuration values and token subjects spell them.

An integer is an optional sign and at least one digit.  A double is that with a fraction, an
exponent, or one of the words for infinity and not-a-number in any letter case.  Nothing may
stand before or after.
-/

namespace Contestant

/-! ## Digits -/

def digitValue (c : Char) : Nat := c.toNat - '0'.toNat

def digitsValue (digits : List Char) : Nat :=
  digits.foldl (fun n c => 10 * n + digitValue c) 0

/-- The value of a text of one or more digits and nothing else. -/
def readDigits (text : List Char) : Option Nat :=
  if !text.isEmpty && text.all Char.isDigit then some (digitsValue text) else none

/-- An unsigned integer of at most `limit`; a plus sign may lead. -/
def readNatural (limit : Nat) (text : String) : Option Nat :=
  let digits := match text.toList with
    | '+' :: rest => rest
    | rest => rest
  (readDigits digits).filter (· ≤ limit)

/-- A signed integer between `low` and `high`; either sign may lead. -/
def readInteger (low high : Int) (text : String) : Option Int :=
  let value : Option Int := match text.toList with
    | '+' :: rest => (readDigits rest).map Int.ofNat
    | '-' :: rest => (readDigits rest).map fun n : Nat => -(n : Int)
    | rest => (readDigits rest).map Int.ofNat
  value.filter (fun n => decide (low ≤ n) && decide (n ≤ high))

/-! ## Doubles -/

namespace Binary64

/-- The double nearest `digits * 10^exponent`.  Beyond the decimal exponents that doubles reach
the answer is infinite or zero, whatever the digits are. -/
def ofDecimal (sign : Bool) (digits : Nat) (exponent : Int) : Binary64 :=
  if digits = 0 then ofBody sign 0
  else
    let places := ((Nat.toDigits 10 digits).length : Int) + exponent
    if 400 < places then infinity sign
    else if places < -400 then ofBody sign 0
    else if 0 ≤ exponent then round sign (digits * Nat.pow 10 exponent.toNat * unitsPerOne) 1
    else round sign (digits * unitsPerOne) (Nat.pow 10 (-exponent).toNat)

/-- The exponent of a scientific notation: nothing, or `e`, an optional sign and digits. -/
def readExponent : List Char → Option Int
  | [] => some 0
  | e :: rest =>
    if e = 'e' || e = 'E' then
      match rest with
      | '+' :: digits => (readDigits digits).map Int.ofNat
      | '-' :: digits => (readDigits digits).map (fun n => -(n : Int))
      | digits => (readDigits digits).map Int.ofNat
    else none

/-- A number without its sign: digits with at most one point among them, at least one digit, and
an optional exponent. -/
def readUnsigned (sign : Bool) (text : List Char) : Option Binary64 :=
  let whole := text.takeWhile Char.isDigit
  let (fraction, rest) := match text.dropWhile Char.isDigit with
    | '.' :: rest => (rest.takeWhile Char.isDigit, rest.dropWhile Char.isDigit)
    | rest => ([], rest)
  if whole.isEmpty && fraction.isEmpty then none
  else
    (readExponent rest).map fun e =>
      ofDecimal sign (digitsValue (whole ++ fraction)) (e - fraction.length)

/-- A number or the name of a special value, without its sign. -/
def readMagnitude (sign : Bool) (text : List Char) : Option Binary64 :=
  let lower := text.map Char.toLower
  if lower = "inf".toList || lower = "infinity".toList then some (infinity sign)
  else if lower = "nan".toList then some (ofBody sign nan.body)
  else readUnsigned sign text

def ofText? (text : String) : Option Binary64 :=
  match text.toList with
  | '+' :: rest => readMagnitude false rest
  | '-' :: rest => readMagnitude true rest
  | rest => readMagnitude false rest

end Binary64
end Contestant
