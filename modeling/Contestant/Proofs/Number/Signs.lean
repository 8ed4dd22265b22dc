import Contestant.Proofs.Number.Monotone

/-!
Negation, zeros and differences.

Turning the sign reverses the numeric order and leaves the body as it is, so a difference shrinks
as its second term grows, and a product with a number that is not above zero is not above zero.
Both zeros are numerically zero, and no other number is.
-/

namespace Contestant
namespace Binary64

variable {x y z : Binary64}

/-! ## Negation -/

theorem body_lt (x : Binary64) : x.body < 2 ^ 63 := Nat.mod_lt _ (Nat.two_pow_pos 63)

theorem body_neg (x : Binary64) : x.neg.body = x.body := body_ofBody x.body_lt

theorem sign_neg (x : Binary64) : x.neg.sign = !x.sign := sign_ofBody x.body_lt

theorem magnitude_neg (x : Binary64) : x.neg.magnitude = x.magnitude := by
  rw [magnitude, body_neg, magnitude]

theorem isNaN_neg (x : Binary64) : x.neg.isNaN = x.isNaN := by rw [isNaN, body_neg, isNaN]

theorem isFinite_neg (x : Binary64) : x.neg.isFinite = x.isFinite := by
  rw [isFinite, body_neg, isFinite]

theorem isInfinite_neg (x : Binary64) : x.neg.isInfinite = x.isInfinite := by
  rw [isInfinite, body_neg, isInfinite]

theorem ordinal_neg (x : Binary64) : x.neg.ordinal = -x.ordinal := by
  rw [ordinal, body_neg, sign_neg, ordinal]
  cases x.sign <;> simp

theorem neg_le_neg (h : x ≤ y) : y.neg ≤ x.neg := by
  obtain ⟨hx, hy, hle⟩ := le_iff.mp h
  rw [le_iff, isNaN_neg, isNaN_neg, ordinal_neg, ordinal_neg]
  exact ⟨hy, hx, Int.neg_le_neg hle⟩

theorem zero_le_neg_iff : zero ≤ x.neg ↔ x ≤ zero := by
  rw [zero_le_iff, isNaN_neg, ordinal_neg, le_iff, ordinal_zero]
  simp only [isNaN_zero, true_and, Int.neg_nonneg]

/-- Less is left if more is taken from a finite number. -/
theorem sub_le_sub (hx : x.isFinite = true) (h : y ≤ z) : x - z ≤ x - y := by
  have hneg := neg_le_neg h
  refine add_le_add (le_refl (isNaN_of_isFinite hx)) hneg ?_ ?_
  · exact isNaN_add (isNaN_of_isFinite hx) (isNaN_left_of_le hneg) (.inl hx)
  · exact isNaN_add (isNaN_of_isFinite hx) (isNaN_right_of_le hneg) (.inl hx)

/-! ## Zeros -/

theorem isZero_iff : x.isZero = true ↔ x.body = 0 := by rw [isZero, decide_eq_true_eq]

theorem isZero_neg (x : Binary64) : x.neg.isZero = x.isZero := by rw [isZero, body_neg, isZero]

theorem isFinite_of_isZero (hx : x.isZero = true) : x.isFinite = true := by
  rw [isFinite, isZero_iff.mp hx]
  decide

theorem isZero_iff_between : x.isZero = true ↔ zero ≤ x ∧ x ≤ zero := by
  constructor
  · intro hx
    have hnan := isNaN_of_isFinite (isFinite_of_isZero hx)
    have hordinal : x.ordinal = 0 := by rw [ordinal, isZero_iff.mp hx]; simp
    rw [zero_le_iff, le_iff, ordinal_zero, hordinal]
    exact ⟨⟨hnan, Int.le_refl 0⟩, hnan, isNaN_zero, Int.le_refl 0⟩
  · rintro ⟨hx, hx'⟩
    have hle := body_le_of_le hx hx'
    rw [show zero.body = 0 by decide] at hle
    exact isZero_iff.mpr (Nat.le_zero.mp hle)

theorem isPositive_of_zero_le (hx : zero ≤ x) (hne : x.isZero = false) : x.isPositive = true := by
  have hbody : x.body ≠ 0 := by rwa [isZero, decide_eq_false_iff_not] at hne
  refine isPositive_iff.mpr ⟨isNaN_right_of_le hx, ?_⟩
  rw [ordinal_of_zero_le hx]
  omega

/-! ## Products -/

theorem mul_neg (hx : x.isFinite = true) (hy : y.isFinite = true) : x * y.neg = (x * y).neg := by
  have hsigns : (x.sign != !y.sign) = !(x.sign != y.sign) := by
    cases x.sign <;> cases y.sign <;> rfl
  have hlt := roundBody_lt (x.magnitude * y.magnitude) unitsPerOne
  rw [mul_eq_round hx ((isFinite_neg y).trans hy), mul_eq_round hx hy, magnitude_neg, sign_neg,
    hsigns, neg, round, round, sign_ofBody hlt, body_ofBody hlt]

theorem mul_le_zero (hx : zero ≤ x) (hy : y ≤ zero) (hxf : x.isFinite = true)
    (hyf : y.isFinite = true) : x * y ≤ zero := by
  have hneg := zero_le_mul hx (zero_le_neg_iff.mpr hy) hxf ((isFinite_neg y).trans hyf)
  rw [mul_neg hxf hyf] at hneg
  exact zero_le_neg_iff.mp hneg

theorem body_mul (hx : x.isFinite = true) (hy : y.isFinite = true) :
    (x * y).body = roundBody (x.magnitude * y.magnitude) unitsPerOne := by
  rw [mul_eq_round hx hy, round, body_ofBody (roundBody_lt _ _)]

theorem not_isFinite_mul (x : Binary64) (hy : y.isInfinite = true) : (x * y).isFinite = false := by
  show (mul x y).isFinite = false
  rw [mul, hy, Bool.or_true, if_pos rfl]
  split
  · decide
  split
  · decide
  · cases x.sign != y.sign <;> decide

theorem isFinite_of_between {low high : Binary64} (hlow : low ≤ x) (hhigh : x ≤ high)
    (hlow' : low.isFinite = true) (hhigh' : high.isFinite = true) : x.isFinite = true := by
  rcases isFinite_or_isInfinite (isNaN_right_of_le hlow) with hfinite | hinfinite
  · exact hfinite
  · have hlt := (ordinal_lt_of_isFinite hlow').1
    have hlt' := (ordinal_lt_of_isFinite hhigh').2
    have hle := (le_iff.mp hlow).2.2
    have hle' := (le_iff.mp hhigh).2.2
    have hx := ordinal_of_isInfinite hinfinite
    split at hx <;> omega

end Binary64
end Contestant
