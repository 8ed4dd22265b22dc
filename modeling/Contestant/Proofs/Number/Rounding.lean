import Contestant.Proofs.Number.Order
import Mathlib.Data.Nat.Log

/-!
Rounding keeps the order and the numbers that need none.

`roundBody_mono` says that a larger ratio never rounds to a smaller body, and
`roundBody_magnitudeOf` that the value of a finite double rounds to that double.  Both follow the
binade of the value: within one the nearest even integer decides, and the last body of a binade is
where the next one starts.
-/

namespace Contestant
namespace Binary64

/-! ## The nearest integer -/

section

variable {num num' den : Nat}

theorem div_le_nearestEven (num den : Nat) : num / den ≤ nearestEven num den := by
  simp only [nearestEven]
  split
  · exact Nat.le_refl _
  · split <;> omega

theorem nearestEven_le_succ (num den : Nat) : nearestEven num den ≤ num / den + 1 := by
  simp only [nearestEven]
  split
  · omega
  · split <;> omega

theorem nearestEven_mul (hden : 0 < den) (n : Nat) : nearestEven (n * den) den = n := by
  simp only [nearestEven, Nat.mul_mod_left, Nat.mul_zero, hden, if_true]
  exact Nat.mul_div_cancel n hden

theorem nearestEven_mono (h : num ≤ num') : nearestEven num den ≤ nearestEven num' den := by
  have hquotient : num / den ≤ num' / den := Nat.div_le_div_right h
  rcases Nat.lt_or_eq_of_le hquotient with hlt | heq
  · exact Nat.le_trans (nearestEven_le_succ num den)
      (Nat.le_trans hlt (div_le_nearestEven num' den))
  · -- Between the same two integers the larger remainder rounds up sooner.
    have hmod : num % den ≤ num' % den := by
      have hdiv := Nat.div_add_mod num den
      have hdiv' := Nat.div_add_mod num' den
      rw [← heq] at hdiv'
      omega
    simp only [nearestEven, ← heq]
    split
    · split
      · exact Nat.le_refl _
      · split <;> omega
    · split
      · split
        · omega
        · split <;> omega
      · split
        · omega
        · split <;> omega

theorem nearestEven_le_of_le_mul (hden : 0 < den) {n : Nat} (h : num ≤ n * den) :
    nearestEven num den ≤ n := by
  calc nearestEven num den ≤ nearestEven (n * den) den := nearestEven_mono h
    _ = n := nearestEven_mul hden n

theorem le_nearestEven_of_mul_le (hden : 0 < den) {n : Nat} (h : n * den ≤ num) :
    n ≤ nearestEven num den := by
  calc n = nearestEven (n * den) den := (nearestEven_mul hden n).symm
    _ ≤ nearestEven num den := nearestEven_mono h

theorem nearestEven_mul_right {c : Nat} (hc : 0 < c) (num den : Nat) :
    nearestEven (num * c) (den * c) = nearestEven num den := by
  simp only [nearestEven, Nat.mul_div_mul_right _ _ hc, Nat.mul_mod_mul_right, ← Nat.mul_assoc,
    Nat.mul_lt_mul_right hc]

end

/-! ## The nearest body -/

theorem doublings_mono {a b : Nat} (h : a ≤ b) : doublings a ≤ doublings b := by
  simp only [doublings, Nat.log2_eq_log_two]
  exact Nat.sub_le_sub_right (Nat.log_mono_right h) 52

/-- The body before it is held to the infinite one. -/
def unboundedBody (num den : Nat) : Nat :=
  doublings (num / den) * 2 ^ 52 + nearestEven num (den * 2 ^ doublings (num / den))

theorem roundBody_eq (num den : Nat) :
    roundBody num den = min infiniteBody (unboundedBody num den) := rfl

section

variable {den : Nat}

theorem lt_of_doublings (num : Nat) (hden : 0 < den) :
    num < 2 ^ (53 + doublings (num / den)) * den := by
  have hlt : num / den < 2 ^ (53 + doublings (num / den)) := by
    have hlog : (num / den).log2 < 53 + doublings (num / den) := by
      simp only [doublings]
      omega
    exact Nat.lt_of_lt_of_le Nat.lt_log2_self (Nat.pow_le_pow_right (by decide) hlog)
  exact (Nat.div_lt_iff_lt_mul hden).mp hlt

theorem le_of_doublings {num : Nat} (hden : 0 < den) (hpos : 0 < doublings (num / den)) :
    2 ^ (52 + doublings (num / den)) * den ≤ num := by
  have hlog : 52 + doublings (num / den) = (num / den).log2 := by
    simp only [doublings] at hpos ⊢
    omega
  have hne : num / den ≠ 0 := by
    intro hzero
    rw [hzero] at hpos
    exact absurd hpos (by decide)
  rw [hlog]
  exact (Nat.le_div_iff_mul_le hden).mp (Nat.log2_self_le hne)

/-- A value in one binade rounds to no more than the first body of the binade after the next. -/
theorem unboundedBody_le (num : Nat) (hden : 0 < den) :
    unboundedBody num den ≤ (doublings (num / den) + 2) * 2 ^ 52 := by
  have hlt := lt_of_doublings num hden
  have hnearest : nearestEven num (den * 2 ^ doublings (num / den)) ≤ 2 ^ 53 := by
    apply nearestEven_le_of_le_mul (Nat.mul_pos hden (Nat.two_pow_pos _))
    rw [Nat.pow_add] at hlt
    calc num ≤ 2 ^ 53 * 2 ^ doublings (num / den) * den := Nat.le_of_lt hlt
      _ = 2 ^ 53 * (den * 2 ^ doublings (num / den)) := by ring
  simp only [unboundedBody]
  omega

theorem le_unboundedBody {num : Nat} (hden : 0 < den) (hpos : 0 < doublings (num / den)) :
    (doublings (num / den) + 1) * 2 ^ 52 ≤ unboundedBody num den := by
  have hle := le_of_doublings hden hpos
  have hnearest : 2 ^ 52 ≤ nearestEven num (den * 2 ^ doublings (num / den)) := by
    apply le_nearestEven_of_mul_le (Nat.mul_pos hden (Nat.two_pow_pos _))
    rw [Nat.pow_add] at hle
    calc 2 ^ 52 * (den * 2 ^ doublings (num / den))
        = 2 ^ 52 * 2 ^ doublings (num / den) * den := by ring
      _ ≤ num := hle
  simp only [unboundedBody]
  omega

theorem unboundedBody_mono {num num' : Nat} (hden : 0 < den) (h : num ≤ num') :
    unboundedBody num den ≤ unboundedBody num' den := by
  have hdoublings := doublings_mono (Nat.div_le_div_right (c := den) h)
  rcases Nat.lt_or_eq_of_le hdoublings with hlt | heq
  · have hupper := unboundedBody_le num hden
    have hpos : 0 < doublings (num' / den) := Nat.lt_of_le_of_lt (Nat.zero_le _) hlt
    have hlower := le_unboundedBody hden hpos
    omega
  · simp only [unboundedBody, ← heq]
    exact Nat.add_le_add_left (nearestEven_mono h) _

theorem roundBody_mono {num num' : Nat} (hden : 0 < den) (h : num ≤ num') :
    roundBody num den ≤ roundBody num' den := by
  have hle := unboundedBody_mono hden h
  rw [roundBody_eq, roundBody_eq]
  omega

/-- Only the ratio counts. -/
theorem roundBody_mul_right {c : Nat} (hc : 0 < c) (num den : Nat) :
    roundBody (num * c) (den * c) = roundBody num den := by
  rw [roundBody_eq, roundBody_eq, unboundedBody, unboundedBody, Nat.mul_div_mul_right _ _ hc,
    Nat.mul_right_comm, nearestEven_mul_right hc]

theorem roundBody_antitone {den' : Nat} (num : Nat) (hden : 0 < den) (h : den ≤ den') :
    roundBody num den' ≤ roundBody num den := by
  have hden' : 0 < den' := Nat.lt_of_lt_of_le hden h
  calc roundBody num den' = roundBody (num * den) (den' * den) :=
        (roundBody_mul_right hden num den').symm
    _ ≤ roundBody (num * den') (den' * den) :=
        roundBody_mono (Nat.mul_pos hden' hden) (Nat.mul_le_mul_left num h)
    _ = roundBody (num * den') (den * den') := by rw [Nat.mul_comm den' den]
    _ = roundBody num den := roundBody_mul_right hden' num den

theorem roundBody_le_infiniteBody (num den : Nat) : roundBody num den ≤ infiniteBody :=
  Nat.min_le_left _ _

theorem roundBody_zero (den : Nat) : roundBody 0 den = 0 := by
  have hzero : doublings (0 / den) = 0 := by
    rw [Nat.zero_div]
    decide
  rw [roundBody_eq, unboundedBody, hzero]
  simp [nearestEven]

end

/-! ## Values -/

theorem magnitudeOf_of_lt {b : Nat} (h : b < 2 ^ 52) : magnitudeOf b = b := if_pos h

theorem magnitudeOf_of_le {b : Nat} (h : 2 ^ 52 ≤ b) :
    magnitudeOf b = (2 ^ 52 + b % 2 ^ 52) * 2 ^ (b / 2 ^ 52 - 1) := if_neg (Nat.not_lt.mpr h)

theorem doublings_magnitudeOf (b : Nat) : doublings (magnitudeOf b) = b / 2 ^ 52 - 1 := by
  rcases Nat.lt_or_ge b (2 ^ 52) with hlt | hge
  · rw [magnitudeOf_of_lt hlt, Nat.div_eq_of_lt hlt, doublings]
    rcases Nat.eq_zero_or_pos b with rfl | hpos
    · decide
    · have := (Nat.log2_lt (Nat.ne_of_gt hpos)).mpr hlt
      omega
  · have hlog : (magnitudeOf b).log2 = 52 + (b / 2 ^ 52 - 1) := by
      rw [magnitudeOf_of_le hge]
      have hmod : b % 2 ^ 52 < 2 ^ 52 := Nat.mod_lt _ (Nat.two_pow_pos _)
      have hpow := Nat.two_pow_pos (b / 2 ^ 52 - 1)
      have hne : (2 ^ 52 + b % 2 ^ 52) * 2 ^ (b / 2 ^ 52 - 1) ≠ 0 :=
        Nat.ne_of_gt (Nat.mul_pos (by omega) hpow)
      rw [Nat.log2_eq_iff hne]
      constructor
      · rw [Nat.pow_add]
        exact Nat.mul_le_mul_right _ (by omega)
      · rw [Nat.add_right_comm, Nat.pow_add]
        exact Nat.mul_lt_mul_of_pos_right (by omega) hpow
    rw [doublings, hlog]
    omega

theorem unboundedBody_magnitudeOf (b : Nat) : unboundedBody (magnitudeOf b) 1 = b := by
  rw [unboundedBody, Nat.div_one, doublings_magnitudeOf, Nat.one_mul]
  rcases Nat.lt_or_ge b (2 ^ 52) with hlt | hge
  · rw [magnitudeOf_of_lt hlt, Nat.div_eq_of_lt hlt]
    have := nearestEven_mul Nat.one_pos b
    rw [Nat.mul_one] at this
    simpa using this
  · rw [magnitudeOf_of_le hge, nearestEven_mul (Nat.two_pow_pos _)]
    omega

/-- The value of a finite double is rounded to that double. -/
theorem roundBody_magnitudeOf {b : Nat} (h : b ≤ infiniteBody) :
    roundBody (magnitudeOf b) 1 = b := by
  rw [roundBody_eq, unboundedBody_magnitudeOf, Nat.min_eq_right h]

theorem magnitudeOf_strictMono : StrictMono magnitudeOf := by
  intro a b hlt
  by_contra hle
  have hmono := unboundedBody_mono Nat.one_pos (Nat.le_of_not_lt hle)
  rw [unboundedBody_magnitudeOf, unboundedBody_magnitudeOf] at hmono
  omega

end Binary64
end Contestant
