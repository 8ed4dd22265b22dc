import Contestant.Number.Rounding

/-!
Arithmetic on doubles: each operation is its exact result, rounded once.

Sums start from `-0`, which is neutral for addition, so that the sum of nothing is `-0` and the
sum of one number is that number.  Powers are formed by repeated squaring, and every product is
rounded; the order of the products is part of the result.
-/

namespace Contestant
namespace Binary64

def neg (x : Binary64) : Binary64 := ofBody (!x.sign) x.body

/-- The rounded sum.  An exact sum of zero is `-0` only when both terms are negative zeros. -/
def add (x y : Binary64) : Binary64 :=
  if x.isNaN || y.isNaN then nan
  else if x.isInfinite then
    if y.isInfinite && (x.sign != y.sign) then nan else x
  else if y.isInfinite then y
  else
    let exact := x.scaled + y.scaled
    if exact = 0 then ofBody (x.sign && y.sign) 0
    else round (decide (exact < 0)) exact.natAbs 1

def sub (x y : Binary64) : Binary64 := add x y.neg

def mul (x y : Binary64) : Binary64 :=
  if x.isNaN || y.isNaN then nan
  else if x.isInfinite || y.isInfinite then
    if x.isZero || y.isZero then nan else infinity (x.sign != y.sign)
  else round (x.sign != y.sign) (x.magnitude * y.magnitude) unitsPerOne

def div (x y : Binary64) : Binary64 :=
  if x.isNaN || y.isNaN then nan
  else if x.isInfinite then
    if y.isInfinite then nan else infinity (x.sign != y.sign)
  else if y.isInfinite then ofBody (x.sign != y.sign) 0
  else if y.isZero then
    if x.isZero then nan else infinity (x.sign != y.sign)
  else round (x.sign != y.sign) (x.magnitude * unitsPerOne) y.magnitude

instance : Neg Binary64 := ⟨neg⟩
instance : Add Binary64 := ⟨add⟩
instance : Sub Binary64 := ⟨sub⟩
instance : Mul Binary64 := ⟨mul⟩
instance : Div Binary64 := ⟨div⟩

/-- The larger of two numbers; a not-a-number gives way to the other argument. -/
def max (x y : Binary64) : Binary64 :=
  if x.isNaN then y
  else if y.isNaN then x
  else if x.lessThan y then y else x

def sum (xs : List Binary64) : Binary64 := xs.foldl (· + ·) negativeZero

/-- Multiplies `acc` by the powers `base^(2^i)` for the binary digits of `m` that are set, lowest
digit first, squaring `base` between digits and no further than the highest one. -/
def powerLoop (acc base : Binary64) (m : Nat) : Binary64 :=
  let acc := if m % 2 = 1 then acc * base else acc
  if m / 2 = 0 then acc else powerLoop acc (base * base) (m / 2)
termination_by m
decreasing_by omega

/-- The power with a whole exponent: repeated squaring on the exponent's absolute value, and one
reciprocal at the end for a negative exponent. -/
def power (x : Binary64) (exponent : Int) : Binary64 :=
  let r := powerLoop one x exponent.natAbs
  if exponent < 0 then one / r else r

end Binary64
end Contestant
