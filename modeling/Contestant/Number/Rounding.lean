import Contestant.Number.Binary64

/-!
Rounding a ratio of natural numbers to the nearest double, a tie to the even neighbour.

A double's spacing doubles with every binade, and its body counts the doubles from zero upwards.
So the body of the nearest double is the number of doubles below the binade of the exact value
plus the value counted in that binade's spacing; a carry into the next binade, from subnormal to
normal and from the largest finite number to infinity needs no case of its own.
-/

namespace Contestant
namespace Binary64

/-- The natural number nearest `num / den`, a tie going to the even one. -/
def nearestEven (num den : Nat) : Nat :=
  let quotient := num / den
  let twice := 2 * (num % den)
  if twice < den then quotient
  else if den < twice then quotient + 1
  else quotient + quotient % 2

/-- How many doublings the spacing at a value with integer part `whole` has behind it, both
counted in units of `2^-1074`: none while 53 binary digits suffice. -/
def doublings (whole : Nat) : Nat := whole.log2 - 52

/-- The body of the double nearest `num / den` units of `2^-1074`, or the infinite body from half
a step above the largest finite number on. -/
def roundBody (num den : Nat) : Nat :=
  let k := doublings (num / den)
  min infiniteBody (k * Nat.pow 2 52 + nearestEven num (den * Nat.pow 2 k))

/-- The double of the given sign nearest `num / den` units of `2^-1074`. -/
def round (sign : Bool) (num den : Nat) : Binary64 := ofBody sign (roundBody num den)

def unitsPerOne : Nat := Nat.pow 2 1074

end Binary64
end Contestant
