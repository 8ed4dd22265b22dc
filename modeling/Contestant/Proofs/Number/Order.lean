import Contestant.Number.Arithmetic
import Mathlib.Order.Basic
import Mathlib.Tactic.Ring

/-!
The orders on doubles.

A double is determined by its sign and its body, and by its rank, so the total order has no ties
but between equal bit patterns.  The numeric order compares ordinals.  It agrees with the total
order up to the two zeros, which it does not tell apart, and it leaves the not-a-numbers out.
-/

namespace Contestant
namespace Binary64

/-! ## Sign and body -/

theorem word_lt (x : Binary64) : x.word < 2 ^ 64 := x.bits.toNat_lt

theorem word_eq (x : Binary64) : x.word = (if x.sign then 2 ^ 63 else 0) + x.body := by
  have hlt := x.word_lt
  simp only [sign, body, Nat.pow_eq, decide_eq_true_eq]
  split <;> omega

theorem ext_sign_body {x y : Binary64} (hsign : x.sign = y.sign) (hbody : x.body = y.body) :
    x = y := by
  have hword : x.word = y.word := by rw [word_eq, word_eq, hsign, hbody]
  obtain ⟨bits⟩ := x
  obtain ⟨bits'⟩ := y
  exact congrArg Binary64.mk (UInt64.toNat_inj.mp hword)

section

variable {s : Bool} {b : Nat}

theorem word_ofBody (hb : b < 2 ^ 63) : (ofBody s b).word = (if s then 2 ^ 63 else 0) + b := by
  have hlt : (if s then 2 ^ 63 else 0) + b < UInt64.size := by
    have : UInt64.size = 2 ^ 64 := rfl
    split <;> omega
  simp only [word, ofBody, Nat.pow_eq]
  exact UInt64.toNat_ofNat_of_lt' hlt

theorem sign_ofBody (hb : b < 2 ^ 63) : (ofBody s b).sign = s := by
  simp only [sign, word_ofBody hb, Nat.pow_eq]
  cases s with
  | true => simp
  | false =>
    simp
    omega

theorem body_ofBody (hb : b < 2 ^ 63) : (ofBody s b).body = b := by
  simp only [body, word_ofBody hb, Nat.pow_eq]
  split <;> omega

end

theorem infiniteBody_lt : infiniteBody < 2 ^ 63 := by decide

/-! ## The total order -/

theorem rank_injective : Function.Injective rank := by
  intro x y h
  simp only [rank] at h
  cases hx : x.sign <;> cases hy : y.sign <;>
    simp only [hx, hy, Bool.false_eq_true, if_true, if_false] at h
  · exact ext_sign_body (hx.trans hy.symm) (by omega)
  · omega
  · omega
  · exact ext_sign_body (hx.trans hy.symm) (by omega)

/-! ## The numeric order -/

/-- Numeric comparison as a relation.  A not-a-number is related to nothing. -/
instance : LE Binary64 := ⟨fun x y => x.atMost y = true⟩

section

variable {x y z : Binary64}

theorem le_iff : x ≤ y ↔ x.isNaN = false ∧ y.isNaN = false ∧ x.ordinal ≤ y.ordinal := by
  show x.atMost y = true ↔ _
  simp only [atMost, Bool.and_eq_true, Bool.not_eq_true', decide_eq_true_eq, and_assoc]

theorem le_refl (h : x.isNaN = false) : x ≤ x := le_iff.mpr ⟨h, h, Int.le_refl _⟩

theorem le_trans (hxy : x ≤ y) (hyz : y ≤ z) : x ≤ z := by
  obtain ⟨hx, -, hle⟩ := le_iff.mp hxy
  obtain ⟨-, hz, hle'⟩ := le_iff.mp hyz
  exact le_iff.mpr ⟨hx, hz, Int.le_trans hle hle'⟩

instance : @Trans Binary64 Binary64 Binary64 LE.le LE.le LE.le := ⟨le_trans⟩

theorem isNaN_left_of_le (h : x ≤ y) : x.isNaN = false := (le_iff.mp h).1

theorem isNaN_right_of_le (h : x ≤ y) : y.isNaN = false := (le_iff.mp h).2.1

end

theorem isNaN_zero : zero.isNaN = false := by decide

theorem ordinal_zero : zero.ordinal = 0 := by decide

section

variable {x y : Binary64}

theorem zero_le_iff : zero ≤ x ↔ x.isNaN = false ∧ 0 ≤ x.ordinal := by
  rw [le_iff, ordinal_zero]
  simp only [isNaN_zero, true_and]

theorem isPositive_iff : x.isPositive = true ↔ x.isNaN = false ∧ 0 < x.ordinal := by
  simp only [isPositive, lessThan, isNaN_zero, ordinal_zero, Bool.not_false, Bool.true_and,
    Bool.and_eq_true, Bool.not_eq_true', decide_eq_true_eq]

theorem zero_le_of_isPositive (h : x.isPositive = true) : zero ≤ x := by
  obtain ⟨hnan, hpos⟩ := isPositive_iff.mp h
  exact zero_le_iff.mpr ⟨hnan, Int.le_of_lt hpos⟩

theorem isNegative_of_zero_le (h : zero ≤ x) : x.isNegative = false := by
  obtain ⟨-, hle⟩ := zero_le_iff.mp h
  simp only [isNegative, lessThan, ordinal_zero, Int.not_lt.mpr hle, decide_false, Bool.and_false]

theorem isPositive_of_le (hx : x.isPositive = true) (h : x ≤ y) : y.isPositive = true := by
  obtain ⟨-, hpos⟩ := isPositive_iff.mp hx
  obtain ⟨-, hy, hle⟩ := le_iff.mp h
  exact isPositive_iff.mpr ⟨hy, Int.lt_of_lt_of_le hpos hle⟩

theorem sign_of_isPositive (h : x.isPositive = true) : x.sign = false := by
  obtain ⟨-, hpos⟩ := isPositive_iff.mp h
  simp only [ordinal] at hpos
  cases hs : x.sign with
  | false => rfl
  | true =>
    rw [hs, if_pos rfl] at hpos
    omega

theorem ordinal_of_sign (h : x.sign = false) : x.ordinal = x.body := by
  rw [ordinal, h, if_neg Bool.false_ne_true]

/-- On the number line a nonnegative number stands at its body. -/
theorem ordinal_of_zero_le (h : zero ≤ x) : x.ordinal = x.body := by
  obtain ⟨-, hle⟩ := zero_le_iff.mp h
  cases hs : x.sign with
  | false => exact ordinal_of_sign hs
  | true =>
    -- Of the numbers with a sign only `-0` is not below zero.
    simp only [ordinal, hs, if_true] at hle ⊢
    omega

theorem body_le_of_le (hx : zero ≤ x) (h : x ≤ y) : x.body ≤ y.body := by
  have hle := (le_iff.mp h).2.2
  rw [ordinal_of_zero_le hx, ordinal_of_zero_le (le_trans hx h)] at hle
  omega

/-- Positive numbers that are numerically equal have the same bits. -/
theorem eq_of_le_of_le (hx : x.isPositive = true) (hxy : x ≤ y) (hyx : y ≤ x) : x = y := by
  have hs := sign_of_isPositive hx
  have hs' := sign_of_isPositive (isPositive_of_le hx hxy)
  have hle := (le_iff.mp hxy).2.2
  have hge := (le_iff.mp hyx).2.2
  rw [ordinal_of_sign hs, ordinal_of_sign hs'] at hle hge
  exact ext_sign_body (hs.trans hs'.symm) (by omega)

theorem le_of_rank_le (hx : x.isNaN = false) (hy : y.isNaN = false) (h : x.rank ≤ y.rank) :
    x ≤ y := by
  refine le_iff.mpr ⟨hx, hy, ?_⟩
  simp only [rank, ordinal] at h ⊢
  cases hs : x.sign <;> cases hs' : y.sign <;>
    simp only [hs, hs', Bool.false_eq_true, if_true, if_false] at h ⊢ <;> omega

theorem le_of_lessThan (h : x.lessThan y = true) : x ≤ y := by
  simp only [lessThan, Bool.and_eq_true, Bool.not_eq_true', decide_eq_true_eq] at h
  exact le_iff.mpr ⟨h.1.1, h.1.2, Int.le_of_lt h.2⟩

theorem lessThan_of_rank_lt (hx : x.isPositive = true) (hy : y.isPositive = true)
    (h : x.rank < y.rank) : x.lessThan y = true := by
  have hs := sign_of_isPositive hx
  have hs' := sign_of_isPositive hy
  simp only [rank, hs, hs', Bool.false_eq_true, if_false] at h
  simp only [lessThan, (isPositive_iff.mp hx).1, (isPositive_iff.mp hy).1, ordinal_of_sign hs,
    ordinal_of_sign hs', Bool.not_false, Bool.true_and, decide_eq_true_eq]
  exact h

theorem numericallyEqual_self (x : Binary64) : x.numericallyEqual x = !x.isNaN := by
  simp only [numericallyEqual, Bool.and_self, decide_true, Bool.and_true]

theorem numericallyEqual_of_isNaN (h : x.isNaN = true) (y : Binary64) :
    x.numericallyEqual y = false := by
  simp only [numericallyEqual, h, Bool.not_true, Bool.false_and]

end

/-! ## Infinities -/

section

variable {x y : Binary64}

theorem isNaN_eq_false_iff : x.isNaN = false ↔ x.body ≤ infiniteBody := by
  simp only [isNaN, decide_eq_false_iff_not, Nat.not_lt]

theorem isNaN_of_isFinite (h : x.isFinite = true) : x.isNaN = false := by
  simp only [isFinite, decide_eq_true_eq] at h
  exact isNaN_eq_false_iff.mpr (Nat.le_of_lt h)

theorem isFinite_or_isInfinite (h : x.isNaN = false) :
    x.isFinite = true ∨ x.isInfinite = true := by
  simp only [isFinite, isInfinite, decide_eq_true_eq]
  exact Nat.lt_or_eq_of_le (isNaN_eq_false_iff.mp h)

theorem isInfinite_of_isFinite (h : x.isFinite = true) : x.isInfinite = false := by
  simp only [isFinite, isInfinite, decide_eq_true_eq, decide_eq_false_iff_not] at h ⊢
  omega

theorem eq_infinity_iff {s : Bool} : x = infinity s ↔ x.isInfinite = true ∧ x.sign = s := by
  simp only [isInfinite, decide_eq_true_eq]
  constructor
  · rintro rfl
    exact ⟨body_ofBody infiniteBody_lt, sign_ofBody infiniteBody_lt⟩
  · rintro ⟨hbody, hsign⟩
    exact ext_sign_body (hsign.trans (sign_ofBody infiniteBody_lt).symm)
      (hbody.trans (body_ofBody infiniteBody_lt).symm)

theorem isFinite_of_isPositive (h : x.isPositive = true) (hne : x ≠ infinity false) :
    x.isFinite = true := by
  rcases isFinite_or_isInfinite (isPositive_iff.mp h).1 with hfinite | hinfinite
  · exact hfinite
  · exact absurd (eq_infinity_iff.mpr ⟨hinfinite, sign_of_isPositive h⟩) hne

theorem not_isFinite_of_isInfinite (h : x.isInfinite = true) : ¬ x.isFinite = true := by
  simp only [isFinite, isInfinite, decide_eq_true_eq] at h ⊢
  omega

theorem isFinite_of_le (hx : zero ≤ x) (h : x ≤ y) (hy : y.isFinite = true) :
    x.isFinite = true := by
  have hle := body_le_of_le hx h
  simp only [isFinite, decide_eq_true_eq] at hy ⊢
  omega

end

end Binary64
end Contestant
