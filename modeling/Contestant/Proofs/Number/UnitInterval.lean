import Contestant.Proofs.Number.Signs

/-!
Numbers between zero and one.

A product of such numbers is one of them, and so is a power, however often it is rounded on the
way: `powerLoop_le` carries a bound through the accumulator and the running square at once.  What
such a number lacks to one lies between zero and one again.  Its reciprocal lies beyond one, and
what that lacks to one is not above zero.
-/

namespace Contestant
namespace Binary64

structure InUnit (x : Binary64) : Prop where
  zero_le : zero ≤ x
  le_one : x ≤ one

section

variable {x y z bound : Binary64}

/-! ## Commutativity and the neutral one -/

theorem add_comm (x y : Binary64) : x + y = y + x := by
  show add x y = add y x
  simp only [add, Bool.or_comm y.isNaN, Bool.and_comm y.sign, Int.add_comm y.scaled]
  split
  · rfl
  cases hx : x.isInfinite with
  | false => cases hy : y.isInfinite <;> simp
  | true =>
    cases hy : y.isInfinite with
    | false => simp
    | true =>
      simp only [if_true, Bool.true_and, bne_iff_ne, ne_eq]
      by_cases hs : x.sign = y.sign
      · -- Infinities of one sign are one number.
        rw [if_neg (not_not.mpr hs), if_neg (not_not.mpr hs.symm), eq_infinity_iff.mpr ⟨hx, hs⟩]
        exact (eq_infinity_iff.mpr ⟨hy, rfl⟩).symm
      · rw [if_pos hs, if_pos (Ne.symm hs)]

theorem mul_comm (x y : Binary64) : x * y = y * x := by
  have hsigns : (y.sign != x.sign) = (x.sign != y.sign) := bne_comm
  show mul x y = mul y x
  simp only [mul, hsigns, Bool.or_comm y.isNaN, Bool.or_comm y.isInfinite, Bool.or_comm y.isZero,
    Nat.mul_comm y.magnitude]

theorem isFinite_one : one.isFinite = true := by decide

theorem magnitude_one : one.magnitude = unitsPerOne := by decide +kernel

theorem mul_one (hx : x.isFinite = true) : x * one = x := by
  have hbody : roundBody (x.magnitude * unitsPerOne) unitsPerOne = x.body := by
    calc roundBody (x.magnitude * unitsPerOne) unitsPerOne
        = roundBody (x.magnitude * unitsPerOne) (1 * unitsPerOne) := by rw [Nat.one_mul]
      _ = roundBody x.magnitude 1 := roundBody_mul_right unitsPerOne_pos _ _
      _ = x.body := roundBody_magnitudeOf (isNaN_eq_false_iff.mp (isNaN_of_isFinite hx))
  rw [mul_eq_round hx isFinite_one, magnitude_one, round, hbody]
  refine ext_sign_body ?_ (body_ofBody x.body_lt)
  rw [sign_ofBody x.body_lt, show one.sign = false by decide, Bool.bne_false]

theorem one_mul (hx : x.isFinite = true) : one * x = x := by rw [mul_comm, mul_one hx]

theorem le_add_left (hx : zero ≤ x) (hy : zero ≤ y) : y ≤ x + y := by
  rw [add_comm]
  exact le_add_right hy hx

/-! ## Powers -/

theorem inUnit_one : InUnit one := ⟨by rw [zero_le_iff]; decide, le_refl (by decide)⟩

theorem InUnit.isFinite (hx : InUnit x) : x.isFinite = true :=
  isFinite_of_le hx.zero_le hx.le_one isFinite_one

/-- A factor from the unit interval takes nothing above a bound. -/
theorem InUnit.mul_le (hx : InUnit x) (hy : zero ≤ y) (hle : y ≤ bound)
    (hbound : bound.isFinite = true) : x * y ≤ bound := by
  calc x * y ≤ one * bound := mul_le_mul hx.zero_le hx.le_one hy hle isFinite_one hbound
    _ = bound := one_mul hbound

theorem InUnit.mul (hx : InUnit x) (hy : InUnit y) : InUnit (x * y) :=
  ⟨zero_le_mul hx.zero_le hy.zero_le hx.isFinite hy.isFinite,
    hx.mul_le hy.zero_le hy.le_one isFinite_one⟩

theorem powerLoop_eq (acc base : Binary64) (m : Nat) :
    powerLoop acc base m =
      if m / 2 = 0 then (if m % 2 = 1 then acc * base else acc)
      else powerLoop (if m % 2 = 1 then acc * base else acc) (base * base) (m / 2) := by
  rw [powerLoop]

/-- The accumulator comes under a bound for the base with the first digit that is set, and there
is one unless the exponent is zero.  The running square never leaves the bound. -/
theorem powerLoop_le {acc base : Binary64} {m : Nat} (hacc : InUnit acc) (hbase : zero ≤ base)
    (hle : base ≤ bound) (hbound : bound ≤ one) (h : acc ≤ bound ∨ m ≠ 0) :
    zero ≤ powerLoop acc base m ∧ powerLoop acc base m ≤ bound := by
  have hfinite := isFinite_of_le (le_trans hbase hle) hbound isFinite_one
  induction m using Nat.strong_induction_on generalizing acc base with
  | _ m ih =>
    have hunit : InUnit base := ⟨hbase, le_trans hle hbound⟩
    have hnext : InUnit (if m % 2 = 1 then acc * base else acc) ∧
        ((if m % 2 = 1 then acc * base else acc) ≤ bound ∨ m / 2 ≠ 0) := by
      split
      · exact ⟨hacc.mul hunit, .inl (hacc.mul_le hbase hle hfinite)⟩
      · exact ⟨hacc, h.imp_right (by omega)⟩
    rw [powerLoop_eq]
    generalize (if m % 2 = 1 then acc * base else acc) = next at hnext
    obtain ⟨hnext, hdigit⟩ := hnext
    split
    · rename_i hzero
      exact ⟨hnext.zero_le, hdigit.resolve_right (not_not.mpr hzero)⟩
    · exact ih (m / 2) (by omega) hnext (hunit.mul hunit).zero_le (hunit.mul_le hbase hle hfinite)
        hdigit

theorem power_natCast (x : Binary64) (k : Nat) : x.power (k : Int) = powerLoop one x k := by
  rw [power, if_neg (by omega), Int.natAbs_natCast]

theorem power_zero (x : Binary64) : x.power 0 = one := by
  rw [← Int.natCast_zero, power_natCast, powerLoop_eq]
  rfl

theorem power_neg (x : Binary64) {k : Nat} (hk : 0 < k) :
    x.power (-(k : Int)) = one / x.power (k : Int) := by
  rw [power_natCast, power, if_pos (by omega), Int.natAbs_neg, Int.natAbs_natCast]

theorem InUnit.power (hx : InUnit x) (k : Nat) : InUnit (x.power (k : Int)) := by
  have hself := le_refl (x := one) (by decide)
  obtain ⟨hzero, hone⟩ := powerLoop_le (m := k) inUnit_one hx.zero_le hx.le_one hself (.inl hself)
  rw [power_natCast]
  exact ⟨hzero, hone⟩

theorem power_le (hx : zero ≤ x) (hle : x ≤ bound) (hbound : bound ≤ one) {k : Nat} (hk : 0 < k) :
    x.power (k : Int) ≤ bound := by
  rw [power_natCast]
  exact (powerLoop_le inUnit_one hx hle hbound (.inr (Nat.ne_of_gt hk))).2

theorem power_one (k : Nat) : one.power (k : Int) = one := by
  have hunit : one * one = one := mul_one isFinite_one
  rw [power_natCast]
  induction k using Nat.strong_induction_on with
  | _ k ih =>
    rw [powerLoop_eq, hunit, ite_self]
    split
    · rfl
    · exact ih (k / 2) (by omega)

/-! ## What is missing to one -/

theorem one_sub_one : one - one = zero := by decide +kernel

theorem one_sub_zero : one - zero = one := by decide +kernel

theorem InUnit.one_sub (hx : InUnit x) : InUnit (one - x) := by
  have hlow := sub_le_sub isFinite_one hx.le_one
  have hhigh := sub_le_sub isFinite_one hx.zero_le
  rw [one_sub_one] at hlow
  rw [one_sub_zero] at hhigh
  exact ⟨hlow, hhigh⟩

/-! ## Reciprocals -/

theorem one_div_of_isZero (hx : x.isZero = true) : one / x = infinity x.sign := by
  have hfinite := isFinite_of_isZero hx
  show div one x = _
  simp only [div, isNaN_of_isFinite hfinite, isInfinite_of_isFinite hfinite, hx,
    show one.isNaN = false by decide, show one.isInfinite = false by decide,
    show one.isZero = false by decide, show one.sign = false by decide, Bool.or_self,
    Bool.false_eq_true, if_false, if_true, Bool.false_bne]

theorem body_pos (hx : x.isPositive = true) : 0 < x.body := by
  have hpos := (isPositive_iff.mp hx).2
  rw [ordinal_of_sign (sign_of_isPositive hx)] at hpos
  omega

theorem magnitude_pos (hx : x.isPositive = true) : 0 < x.magnitude := by
  calc 0 ≤ magnitudeOf 0 := Nat.zero_le _
    _ < x.magnitude := magnitudeOf_strictMono (body_pos hx)

theorem one_div_of_isPositive (hx : x.isPositive = true) (hfinite : x.isFinite = true) :
    one / x = round false (unitsPerOne * unitsPerOne) x.magnitude := by
  have hzero : x.isZero = false := by
    have hpos := body_pos hx
    simp only [isZero, decide_eq_false_iff_not]
    omega
  show div one x = _
  simp only [div, isNaN_of_isFinite hfinite, isInfinite_of_isFinite hfinite, hzero,
    sign_of_isPositive hx, magnitude_one, show one.isNaN = false by decide,
    show one.isInfinite = false by decide, show one.sign = false by decide, Bool.or_self,
    Bool.false_eq_true, if_false, bne_self_eq_false]

theorem one_div_le_one_div (hx : x.isPositive = true) (hle : x ≤ y) (hy : y.isFinite = true) :
    one / y ≤ one / x := by
  have hzero := zero_le_of_isPositive hx
  rw [one_div_of_isPositive hx (isFinite_of_le hzero hle hy),
    one_div_of_isPositive (isPositive_of_le hx hle) hy]
  refine le_iff.mpr ⟨isNaN_round _ _ _, isNaN_round _ _ _, ?_⟩
  rw [ordinal_round, ordinal_round, if_neg Bool.false_ne_true, if_neg Bool.false_ne_true]
  exact Int.ofNat_le.mpr (roundBody_antitone _ (magnitude_pos hx) (magnitude_le_of_le hzero hle))

/-- The reciprocal of zero is infinite. -/
theorem one_div_le_or_isInfinite (hx : zero ≤ x) (hle : x ≤ y) (hy : y.isFinite = true) :
    one / y ≤ one / x ∨ (one / x).isInfinite = true := by
  cases hzero : x.isZero with
  | true => exact .inr (eq_infinity_iff.mp (one_div_of_isZero hzero)).1
  | false => exact .inl (one_div_le_one_div (isPositive_of_zero_le hx hzero) hle hy)

theorem one_sub_le_zero (hx : one ≤ x) : one - x ≤ zero := by
  calc one - x ≤ one - one := sub_le_sub isFinite_one hx
    _ = zero := one_sub_one

theorem isFinite_one_sub (hx : one ≤ x) (hfinite : x.isFinite = true) :
    (one - x).isFinite = true := by
  have hneg : x.neg.isFinite = true := (isFinite_neg x).trans hfinite
  have hnan := isNaN_of_isFinite hneg
  have hlow : x.neg ≤ one - x := by
    calc x.neg ≤ x.neg + zero := le_add_zero hnan
      _ ≤ x.neg + one := add_le_add (le_refl hnan) inUnit_one.zero_le (ordinal_add_zero hnan).1
          (isNaN_add hnan (by decide) (.inl hneg))
      _ = one - x := add_comm _ _
  exact isFinite_of_between hlow (one_sub_le_zero hx) hneg (by decide)

theorem isInfinite_one_sub (hx : x.isInfinite = true) : (one - x).isInfinite = true := by
  have hinfinite : x.neg.isInfinite = true := (isInfinite_neg x).trans hx
  have hnan : (one.isNaN || x.neg.isNaN) = false := by
    rw [show one.isNaN = false by decide, Bool.false_or, isNaN_neg, isNaN_eq_false_iff]
    exact Nat.le_of_eq (of_decide_eq_true hx)
  show (one + x.neg).isInfinite = true
  rw [add_of_isFinite_of_isInfinite isFinite_one hinfinite hnan]
  exact hinfinite

end

end Binary64
end Contestant
