/-!
Double-precision numbers as the 64 bits that store them.

A number is its sign bit and the 63 bits below it, its *body*.  The body of a finite number grows
with its absolute value, the infinity comes next and the not-a-numbers last, so every order on
doubles is an order on bodies and signs.  Values are compared and rounded as natural numbers: a
finite double is `magnitude / 2^1074`.
-/

namespace Contestant

/-- A double-precision number, given by its bits: every not-a-number keeps its own pattern, and
the two zeros differ. -/
structure Binary64 where
  bits : UInt64
  deriving DecidableEq

namespace Binary64

/-! ## Sign and body -/

def word (x : Binary64) : Nat := x.bits.toNat

/-- Whether the sign bit is set.  It is for `-0`, and may be for a not-a-number. -/
def sign (x : Binary64) : Bool := decide (Nat.pow 2 63 ≤ x.word)

/-- The exponent and fraction fields, read as one number. -/
def body (x : Binary64) : Nat := x.word % Nat.pow 2 63

def infiniteBody : Nat := 2047 * Nat.pow 2 52

def ofBody (sign : Bool) (body : Nat) : Binary64 :=
  ⟨UInt64.ofNat ((if sign then Nat.pow 2 63 else 0) + body)⟩

def isFinite (x : Binary64) : Bool := decide (x.body < infiniteBody)

def isInfinite (x : Binary64) : Bool := decide (x.body = infiniteBody)

def isNaN (x : Binary64) : Bool := decide (infiniteBody < x.body)

def isZero (x : Binary64) : Bool := decide (x.body = 0)

/-! ## Constants -/

def zero : Binary64 := ofBody false 0

def negativeZero : Binary64 := ofBody true 0

def one : Binary64 := ofBody false (1023 * Nat.pow 2 52)

def infinity (sign : Bool) : Binary64 := ofBody sign infiniteBody

/-- The quiet not-a-number that operations answer with. -/
def nan : Binary64 := ofBody false (infiniteBody + Nat.pow 2 51)

/-! ## Value -/

/-- The value of a finite body in units of `2^-1074`: a fraction alone below `2^52`, else a
fraction with its hidden bit, doubled once for each step of the exponent field above the first. -/
def magnitudeOf (body : Nat) : Nat :=
  if body < Nat.pow 2 52 then body
  else (Nat.pow 2 52 + body % Nat.pow 2 52) * Nat.pow 2 (body / Nat.pow 2 52 - 1)

def magnitude (x : Binary64) : Nat := magnitudeOf x.body

/-- The signed value of a finite number in units of `2^-1074`. -/
def scaled (x : Binary64) : Int :=
  if x.sign then -(x.magnitude : Int) else (x.magnitude : Int)

/-- The place of a number that is not a not-a-number on the line of values, infinities included;
both zeros stand at `0`. -/
def ordinal (x : Binary64) : Int := if x.sign then -(x.body : Int) else (x.body : Int)

/-! ## Numeric comparison -/

/-- Numeric comparison: it fails whenever a not-a-number takes part, and the zeros are equal. -/
def numericallyEqual (x y : Binary64) : Bool :=
  !x.isNaN && !y.isNaN && decide (x.ordinal = y.ordinal)

def lessThan (x y : Binary64) : Bool :=
  !x.isNaN && !y.isNaN && decide (x.ordinal < y.ordinal)

def atMost (x y : Binary64) : Bool :=
  !x.isNaN && !y.isNaN && decide (x.ordinal ≤ y.ordinal)

def isPositive (x : Binary64) : Bool := zero.lessThan x

def isNegative (x : Binary64) : Bool := x.lessThan zero

/-! ## Total order -/

/-- The place of a bit pattern in the total order of all patterns: negative not-a-numbers, the
negative numbers upwards, `-0`, `0`, the positive numbers, positive not-a-numbers. -/
def rank (x : Binary64) : Int := if x.sign then -(x.body : Int) - 1 else (x.body : Int)

def totalCompare (x y : Binary64) : Ordering := compare x.rank y.rank

end Binary64
end Contestant
