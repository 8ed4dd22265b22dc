import Contestant.Number.Arithmetic

/-!
The bonus for the number of fully solved problems.
-/

namespace Contestant

/-- A number of solved problems, kept in 32 bits. -/
abbrev SolvedCount := UInt32

/-- What is added to the performance points for solved problems. -/
inductive Bonus
  /-- `max * (1 - base^n)` for `n` solved problems. -/
  | saturating (max base : Binary64)
  /-- A flat bonus from `minSolved` solved problems on. -/
  | threshold (minSolved : SolvedCount) (bonus : Binary64)
  | none
  deriving DecidableEq

namespace Bonus

/-- The bonus at a solved count.  The power takes the count as a signed 32-bit exponent, so a
count from `2^31` on stands for a negative one. -/
def points (bonus : Bonus) (solved : SolvedCount) : Binary64 :=
  match bonus with
  | saturating max base => max * (.one - base.power solved.toInt32.toInt)
  | threshold minSolved bonus => if minSolved ≤ solved then bonus else .zero
  | none => .zero

end Bonus
end Contestant
