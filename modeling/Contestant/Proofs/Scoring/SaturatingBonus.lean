import Contestant.Proofs.Number.UnitInterval
import Contestant.Scoring.Bonus
import Contestant.Settings.Settings

/-!
The range of the saturating bonus.

For a base between zero and one the power lies between zero and one, and so does what it lacks to
one, as long as the exponent is not negative.  The solved count becomes a signed exponent, so from
`2^31` solved problems on the power is a reciprocal, and what it lacks to one is not above zero.
Then the bonus is in range only if it rounds to zero.
-/

namespace Contestant

open Binary64 (zero one InUnit)

namespace Binary64

/-- The smallest number with all 53 binary digits. -/
def smallestNormal : Binary64 := ofBody false (Nat.pow 2 52)

/-- The neighbour of one below it. -/
def belowOne : Binary64 := ofBody false (1023 * Nat.pow 2 52 - 1)

/-- The neighbour of one above it. -/
def aboveOne : Binary64 := ofBody false (1023 * Nat.pow 2 52 + 1)

section

variable {x max bound : Binary64}

theorem one_div_belowOne : one / belowOne = aboveOne := by decide +kernel

theorem one_div_one : one / one = one := by decide +kernel

/-- Between `belowOne` and `one` there is no number. -/
theorem le_belowOne (hle : x ≤ one) (hne : x ≠ one) : x ≤ belowOne := by
  have hlt : ¬ one ≤ x := fun hge => hne (eq_of_le_of_le (by decide) hge hle).symm
  obtain ⟨hx, hone, hordinal⟩ := le_iff.mp hle
  have hordinal' : ¬ one.ordinal ≤ x.ordinal := fun h => hlt (le_iff.mpr ⟨hone, hx, h⟩)
  rw [show one.ordinal = belowOne.ordinal + 1 by decide] at hordinal'
  exact le_iff.mpr ⟨hx, by decide, by omega⟩

/-- An infinite number that is taken from one spoils every product. -/
theorem isFinite_of_isFinite_mul (h : (max * (one - x)).isFinite = true)
    (hx : bound ≤ x ∨ x.isInfinite = true) : bound ≤ x ∧ x.isFinite = true := by
  have hnot : ¬ x.isInfinite = true := by
    intro hinfinite
    rw [not_isFinite_mul max (isInfinite_one_sub hinfinite)] at h
    cases h
  have hle := hx.resolve_right hnot
  exact ⟨hle, (isFinite_or_isInfinite (isNaN_right_of_le hle)).resolve_right hnot⟩

/-- A number from one upwards that is taken from one leaves nothing above zero. -/
theorem mul_one_sub_in_range_iff (hmax : zero ≤ max) (hfinite : max.isFinite = true)
    (hx : one ≤ x ∨ x.isInfinite = true) :
    zero ≤ max * (one - x) ∧ max * (one - x) ≤ max ↔ (max * (one - x)).isZero = true := by
  constructor
  · rintro ⟨hlow, hhigh⟩
    obtain ⟨hone, hx'⟩ := isFinite_of_isFinite_mul (isFinite_of_le hlow hhigh hfinite) hx
    exact isZero_iff_between.mpr
      ⟨hlow, mul_le_zero hmax (one_sub_le_zero hone) hfinite (isFinite_one_sub hone hx')⟩
  · intro hzero
    obtain ⟨hlow, hhigh⟩ := isZero_iff_between.mp hzero
    exact ⟨hlow, le_trans hhigh hmax⟩

/-- The gap between one and its upper neighbour, times the smallest normal number, is the smallest
number above zero. -/
theorem smallestNormal_mul_gap : ¬ smallestNormal * (one - aboveOne).neg ≤ zero := by
  rw [le_iff]
  decide +kernel

theorem not_isZero_mul_one_sub (hmax : smallestNormal ≤ max) (hfinite : max.isFinite = true)
    (hx : aboveOne ≤ x ∨ x.isInfinite = true) : ¬ (max * (one - x)).isZero = true := by
  intro hzero
  obtain ⟨habove, hx'⟩ := isFinite_of_isFinite_mul (isFinite_of_isZero hzero) hx
  have hone : one ≤ aboveOne := le_iff.mpr (by decide)
  have hsub := isFinite_one_sub (le_trans hone habove) hx'
  have hgap : zero ≤ (one - aboveOne).neg := zero_le_neg_iff.mpr (one_sub_le_zero hone)
  have hle : smallestNormal * (one - aboveOne).neg ≤ max * (one - x).neg :=
    mul_le_mul (zero_le_iff.mpr (by decide)) hmax hgap
      (neg_le_neg (sub_le_sub isFinite_one habove)) hfinite ((isFinite_neg _).trans hsub)
  rw [mul_neg hfinite hsub] at hle
  exact smallestNormal_mul_gap
    (le_trans hle (isZero_iff_between.mp ((isZero_neg _).trans hzero)).2)

end

end Binary64

namespace Bonus

section

variable {max base : Binary64} {solved : SolvedCount}

/-! ## The solved count as an exponent -/

theorem toInt_toInt32_of_lt (h : solved.toNat < 2 ^ 31) : solved.toInt32.toInt = solved.toNat := by
  rw [← Int32.toInt_toBitVec, UInt32.toBitVec_toInt32, BitVec.toInt_eq_toNat_cond,
    UInt32.toNat_toBitVec, if_pos (by omega)]

theorem toInt_toInt32_of_le (h : 2 ^ 31 ≤ solved.toNat) :
    solved.toInt32.toInt = -((2 ^ 32 - solved.toNat : Nat) : Int) := by
  have hlt := solved.toNat_lt
  rw [← Int32.toInt_toBitVec, UInt32.toBitVec_toInt32, BitVec.toInt_eq_toNat_cond,
    UInt32.toNat_toBitVec, if_neg (by omega)]
  omega

theorem points_of_lt (h : solved.toNat < 2 ^ 31) :
    (saturating max base).points solved = max * (one - base.power (solved.toNat : Int)) := by
  rw [points, toInt_toInt32_of_lt h]

theorem points_of_le (h : 2 ^ 31 ≤ solved.toNat) :
    (saturating max base).points solved =
      max * (one - one / base.power ((2 ^ 32 - solved.toNat : Nat) : Int)) := by
  have hlt := solved.toNat_lt
  rw [points, toInt_toInt32_of_le h, Binary64.power_neg _ (by omega)]

/-! ## The range -/

theorem in_range_of_lt (hmax : zero ≤ max) (hfinite : max.isFinite = true) (hbase : InUnit base)
    (h : solved.toNat < 2 ^ 31) :
    zero ≤ (saturating max base).points solved ∧ (saturating max base).points solved ≤ max := by
  have hunit : InUnit (one - base.power (solved.toNat : Int)) := (hbase.power solved.toNat).one_sub
  have hself := Binary64.le_refl (Binary64.isNaN_of_isFinite hfinite)
  rw [points_of_lt h, Binary64.mul_comm]
  exact ⟨Binary64.zero_le_mul hunit.zero_le hmax hunit.isFinite hfinite,
    hunit.mul_le hmax hself hfinite⟩

theorem in_range_iff_of_le (hmax : zero ≤ max) (hfinite : max.isFinite = true)
    (hbase : InUnit base) (h : 2 ^ 31 ≤ solved.toNat) :
    zero ≤ (saturating max base).points solved ∧ (saturating max base).points solved ≤ max ↔
      ((saturating max base).points solved).isZero = true := by
  have hpower := hbase.power (2 ^ 32 - solved.toNat)
  have hone := Binary64.one_div_le_or_isInfinite hpower.zero_le hpower.le_one Binary64.isFinite_one
  rw [Binary64.one_div_one] at hone
  rw [points_of_le h]
  exact Binary64.mul_one_sub_in_range_iff hmax hfinite hone

/-- A base below one has a reciprocal above one, and so have its powers. -/
theorem isZero_iff_of_le (hmax : Binary64.smallestNormal ≤ max) (hfinite : max.isFinite = true)
    (hbase : InUnit base) (h : 2 ^ 31 ≤ solved.toNat) :
    ((saturating max base).points solved).isZero = true ↔ base = one := by
  have hlt := solved.toNat_lt
  rw [points_of_le h]
  constructor
  · intro hzero
    by_contra hne
    have hpower : base.power ((2 ^ 32 - solved.toNat : Nat) : Int) ≤ Binary64.belowOne :=
      Binary64.power_le hbase.zero_le (Binary64.le_belowOne hbase.le_one hne)
        (Binary64.le_iff.mpr (by decide)) (by omega)
    have habove := Binary64.one_div_le_or_isInfinite (hbase.power _).zero_le hpower (by decide)
    rw [Binary64.one_div_belowOne] at habove
    exact Binary64.not_isZero_mul_one_sub hmax hfinite habove hzero
  · rintro rfl
    rw [Binary64.power_one, Binary64.one_div_one, Binary64.one_sub_one, Binary64.isZero_iff,
      Binary64.body_mul hfinite (by decide), show zero.magnitude = 0 by decide, Nat.mul_zero,
      Binary64.roundBody_zero]

end

/-- With a finite maximum from zero upwards and a base between zero and one the saturating bonus
lies between zero and the maximum for fewer than `2^31` solved problems.  From there on it does so
only if it rounds to zero, which takes a base of one unless the maximum is tiny. -/
theorem saturating_bonus_in_range_iff {max base : Binary64} (hfinite : max.isFinite = true)
    (hmax : zero ≤ max) (hbase : zero ≤ base) (hone : base ≤ one) (solved : SolvedCount) :
    let bonus := (saturating max base).points solved
    (zero ≤ bonus ∧ bonus ≤ max ↔ solved.toNat < 2 ^ 31 ∨ bonus.isZero = true) ∧
    (Binary64.smallestNormal ≤ max →
      (zero ≤ bonus ∧ bonus ≤ max ↔ solved.toNat < 2 ^ 31 ∨ base = one)) := by
  intro bonus
  have hunit : InUnit base := ⟨hbase, hone⟩
  rcases Nat.lt_or_ge solved.toNat (2 ^ 31) with hlt | hge
  · have hrange := in_range_of_lt hmax hfinite hunit hlt
    simp only [hlt, true_or, iff_true]
    exact ⟨hrange, fun _ => hrange⟩
  · have hrange := in_range_iff_of_le hmax hfinite hunit hge
    simp only [Nat.not_lt.mpr hge, false_or]
    exact ⟨hrange, fun hnormal => hrange.trans (isZero_iff_of_le hnormal hfinite hunit hge)⟩

theorem standard_bonus_admissible :
    let settings := Settings.standard "" ""
    settings.bonusMax.isFinite = true ∧ zero ≤ settings.bonusMax ∧ zero ≤ settings.bonusBase ∧
      settings.bonusBase ≤ one := by
  intro settings
  rw [Binary64.zero_le_iff, Binary64.zero_le_iff, Binary64.le_iff]
  decide +kernel

/-- The standard maximum and base, at the largest count. -/
theorem saturating_bonus_in_range_iff_standard :
    let settings := Settings.standard "" ""
    let bonus := (saturating settings.bonusMax settings.bonusBase).points 4294967295
    settings.bonusMax.isFinite = true ∧ zero ≤ settings.bonusMax ∧ zero ≤ settings.bonusBase ∧
      settings.bonusBase ≤ one ∧ Binary64.smallestNormal ≤ settings.bonusMax ∧
      (zero ≤ bonus ∧ bonus ≤ settings.bonusMax ↔
        (4294967295 : SolvedCount).toNat < 2 ^ 31 ∨ bonus.isZero = true) ∧
      (zero ≤ bonus ∧ bonus ≤ settings.bonusMax ↔
        (4294967295 : SolvedCount).toNat < 2 ^ 31 ∨ settings.bonusBase = one) := by
  intro settings bonus
  obtain ⟨hfinite, hmax, hbase, hone⟩ := standard_bonus_admissible
  have hnormal : Binary64.smallestNormal ≤ settings.bonusMax :=
    Binary64.le_iff.mpr (by decide +kernel)
  obtain ⟨hzero, hlarge⟩ := saturating_bonus_in_range_iff hfinite hmax hbase hone 4294967295
  exact ⟨hfinite, hmax, hbase, hone, hnormal, hzero, hlarge hnormal⟩

/-- The standard maximum and base, at the first count that becomes a negative exponent. -/
theorem saturating_bonus_may_be_infinite :
    let settings := Settings.standard "" ""
    let bonus := (saturating settings.bonusMax settings.bonusBase).points 2147483648
    settings.bonusMax.isFinite = true ∧ zero ≤ settings.bonusMax ∧ zero ≤ settings.bonusBase ∧
      settings.bonusBase ≤ one ∧ bonus = .infinity true ∧ ¬ zero ≤ bonus := by
  intro settings bonus
  obtain ⟨hfinite, hmax, hbase, hone⟩ := standard_bonus_admissible
  have hbonus : bonus = .infinity true := by decide +kernel
  refine ⟨hfinite, hmax, hbase, hone, hbonus, ?_⟩
  rw [hbonus, Binary64.zero_le_iff]
  decide

end Bonus
end Contestant
