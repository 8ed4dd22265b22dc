import Contestant.Proofs.Number.Rounding

/-!
Addition and multiplication of doubles keep the numeric order.

The exact sum or product grows with its arguments, and rounding keeps the order.  What remains are
the infinities, which bound every number, and results that are no numbers, which are excluded:
`add_le_add` and `mul_le_mul` ask that the results be numbers.  For arguments from zero upwards a
sum is always one, and it is never below its first term.
-/

namespace Contestant
namespace Binary64

section

variable {x x' y y' : Binary64}

/-! ## Rounded values on the number line -/

/-- The place of the double nearest a whole number of units. -/
def roundedOrdinal (exact : Int) : Int :=
  if exact < 0 then -(roundBody exact.natAbs 1 : Int) else (roundBody exact.natAbs 1 : Int)

theorem roundedOrdinal_mono {a b : Int} (h : a ≤ b) : roundedOrdinal a ≤ roundedOrdinal b := by
  simp only [roundedOrdinal]
  split
  · split
    · have := roundBody_mono Nat.one_pos (show b.natAbs ≤ a.natAbs by omega)
      omega
    · omega
  · split
    · omega
    · have := roundBody_mono Nat.one_pos (show a.natAbs ≤ b.natAbs by omega)
      omega

theorem ordinal_ofBody {s : Bool} {b : Nat} (hb : b < 2 ^ 63) :
    (ofBody s b).ordinal = if s then -(b : Int) else (b : Int) := by
  rw [ordinal, sign_ofBody hb, body_ofBody hb]

theorem roundBody_lt (num den : Nat) : roundBody num den < 2 ^ 63 :=
  Nat.lt_of_le_of_lt (roundBody_le_infiniteBody num den) infiniteBody_lt

theorem isNaN_round (s : Bool) (num den : Nat) : (round s num den).isNaN = false := by
  rw [isNaN_eq_false_iff, round, body_ofBody (roundBody_lt num den)]
  exact roundBody_le_infiniteBody num den

theorem ordinal_round (s : Bool) (num den : Nat) :
    (round s num den).ordinal =
      if s then -(roundBody num den : Int) else (roundBody num den : Int) :=
  ordinal_ofBody (roundBody_lt num den)

theorem scaled_mono (h : x.ordinal ≤ y.ordinal) : x.scaled ≤ y.scaled := by
  have hmono := magnitudeOf_strictMono.monotone
  simp only [ordinal, scaled, magnitude] at h ⊢
  split
  · split
    · rename_i hx hy
      simp only [hx, hy, if_true] at h
      have := hmono (show y.body ≤ x.body by omega)
      omega
    · omega
  · split
    · rename_i hx hy
      simp only [hx, hy, if_true, Bool.false_eq_true, if_false] at h
      have hzero : x.body = 0 ∧ y.body = 0 := by omega
      simp only [hzero.1, hzero.2]
      decide
    · rename_i hx hy
      simp only [hx, hy, Bool.false_eq_true, if_false] at h
      have := hmono (show x.body ≤ y.body by omega)
      omega

theorem roundedOrdinal_scaled (h : x.isNaN = false) : roundedOrdinal x.scaled = x.ordinal := by
  have hround : roundBody x.magnitude 1 = x.body :=
    roundBody_magnitudeOf (isNaN_eq_false_iff.mp h)
  cases hs : x.sign with
  | false =>
    simp only [roundedOrdinal, scaled, ordinal, hs, Bool.false_eq_true, if_false,
      Int.natAbs_natCast, hround]
    omega
  | true =>
    simp only [roundedOrdinal, scaled, ordinal, hs, if_true, Int.natAbs_neg, Int.natAbs_natCast,
      hround]
    split
    · rfl
    · -- The sign of a zero is lost, as it is in the ordinal.
      have hzero : x.magnitude = 0 := by omega
      rw [hzero, roundBody_zero] at hround
      omega

theorem ordinal_bounds (h : x.isNaN = false) :
    -(infiniteBody : Int) ≤ x.ordinal ∧ x.ordinal ≤ infiniteBody := by
  have hbody := isNaN_eq_false_iff.mp h
  simp only [ordinal]
  split <;> omega

theorem ordinal_lt_of_isFinite (h : x.isFinite = true) :
    -(infiniteBody : Int) < x.ordinal ∧ x.ordinal < infiniteBody := by
  simp only [isFinite, decide_eq_true_eq] at h
  simp only [ordinal]
  split <;> omega

theorem ordinal_of_isInfinite (h : x.isInfinite = true) :
    x.ordinal = if x.sign then -(infiniteBody : Int) else (infiniteBody : Int) := by
  simp only [isInfinite, decide_eq_true_eq] at h
  rw [ordinal, h]

theorem le_infinity (h : y.isNaN = false) : y ≤ infinity false := by
  refine le_iff.mpr ⟨h, by decide, ?_⟩
  rw [show (infinity false).ordinal = infiniteBody by decide]
  exact (ordinal_bounds h).2

/-- A number above a finite one and infinite is above every number. -/
theorem le_of_isInfinite_right (h : x ≤ x') (hx : x.isFinite = true) (hx' : x'.isInfinite = true)
    (hy : y.isNaN = false) : y ≤ x' := by
  obtain ⟨-, hnan, hle⟩ := le_iff.mp h
  have hy' := (ordinal_bounds hy).2
  rw [ordinal_of_isInfinite hx'] at hle
  refine le_iff.mpr ⟨hy, hnan, ?_⟩
  rw [ordinal_of_isInfinite hx']
  split at hle
  · have := ordinal_lt_of_isFinite hx
    omega
  · rename_i hs
    rw [if_neg hs]
    exact hy'

/-- A number below a finite one and infinite is below every number. -/
theorem le_of_isInfinite_left (h : x ≤ x') (hx : x.isInfinite = true) (hx' : x'.isFinite = true)
    (hy : y.isNaN = false) : x ≤ y := by
  obtain ⟨hnan, -, hle⟩ := le_iff.mp h
  have hy' := (ordinal_bounds hy).1
  rw [ordinal_of_isInfinite hx] at hle
  refine le_iff.mpr ⟨hnan, hy, ?_⟩
  rw [ordinal_of_isInfinite hx]
  split at hle
  · rename_i hs
    rw [if_pos hs]
    exact hy'
  · have := ordinal_lt_of_isFinite hx'
    omega

/-! ## Addition -/

theorem add_of_isFinite (hx : x.isFinite = true) (hy : y.isFinite = true) :
    (x + y).isNaN = false ∧ (x + y).ordinal = roundedOrdinal (x.scaled + y.scaled) := by
  show (add x y).isNaN = false ∧ (add x y).ordinal = _
  simp only [add, isNaN_of_isFinite hx, isNaN_of_isFinite hy, isInfinite_of_isFinite hx,
    isInfinite_of_isFinite hy, Bool.or_self, Bool.false_eq_true, if_false]
  split
  · rename_i hzero
    rw [hzero]
    have hlt : 0 < 2 ^ 63 := Nat.two_pow_pos 63
    constructor
    · rw [isNaN_eq_false_iff, body_ofBody hlt]
      exact Nat.zero_le _
    · rw [ordinal_ofBody hlt, roundedOrdinal, Int.natAbs_zero, roundBody_zero]
      simp
  · refine ⟨isNaN_round _ _ _, ?_⟩
    rw [ordinal_round, roundedOrdinal]
    simp only [decide_eq_true_eq]

theorem add_of_isInfinite (hx : x.isInfinite = true) (hnan : (x.isNaN || y.isNaN) = false)
    (h : y.isFinite = true ∨ x.sign = y.sign) : x + y = x := by
  show add x y = x
  rw [add, hnan, if_neg Bool.false_ne_true, if_pos hx, if_neg]
  rintro hboth
  rw [Bool.and_eq_true] at hboth
  rcases h with hy | hs
  · rw [isInfinite_of_isFinite hy] at hboth
    exact absurd hboth.1 Bool.false_ne_true
  · rw [hs] at hboth
    simp at hboth

theorem add_of_isFinite_of_isInfinite (hx : x.isFinite = true) (hy : y.isInfinite = true)
    (hnan : (x.isNaN || y.isNaN) = false) : x + y = y := by
  show add x y = y
  rw [add, hnan, if_neg Bool.false_ne_true, isInfinite_of_isFinite hx, if_neg Bool.false_ne_true,
    if_pos hy]

/-- What a sum is that is a number: one of finite numbers, or its infinite term. -/
theorem add_cases (h : (x + y).isNaN = false) :
    (x.isFinite = true ∧ y.isFinite = true) ∨ (x.isInfinite = true ∧ x + y = x) ∨
      (x.isFinite = true ∧ y.isInfinite = true ∧ x + y = y) := by
  have hnan : (x.isNaN || y.isNaN) = false := by
    cases hnan : x.isNaN || y.isNaN with
    | false => rfl
    | true =>
      change (add x y).isNaN = false at h
      rw [add, if_pos hnan] at h
      exact absurd h (by decide)
  obtain ⟨hx, hy⟩ := Bool.or_eq_false_iff.mp hnan
  rcases isFinite_or_isInfinite hx with hfin | hinf
  · rcases isFinite_or_isInfinite hy with hfin' | hinf'
    · exact .inl ⟨hfin, hfin'⟩
    · exact .inr (.inr ⟨hfin, hinf', add_of_isFinite_of_isInfinite hfin hinf' hnan⟩)
  · refine .inr (.inl ⟨hinf, add_of_isInfinite hinf hnan ?_⟩)
    cases hs : y.isFinite with
    | true => exact .inl rfl
    | false =>
      have hinf' := (isFinite_or_isInfinite hy).resolve_left (by rw [hs]; exact Bool.false_ne_true)
      right
      by_contra hne
      change (add x y).isNaN = false at h
      rw [add, hnan, if_neg Bool.false_ne_true, if_pos hinf, hinf', Bool.true_and,
        if_pos (bne_iff_ne.mpr hne)] at h
      exact absurd h (by decide)

/-- A sum of numbers is a number unless its terms are infinite with opposite signs. -/
theorem isNaN_add (hx : x.isNaN = false) (hy : y.isNaN = false)
    (h : x.isFinite = true ∨ y.isFinite = true ∨ x.sign = y.sign) : (x + y).isNaN = false := by
  have hnan : (x.isNaN || y.isNaN) = false := by rw [hx, hy, Bool.or_false]
  rcases isFinite_or_isInfinite hx with hfin | hinf
  · rcases isFinite_or_isInfinite hy with hfin' | hinf'
    · exact (add_of_isFinite hfin hfin').1
    · rw [add_of_isFinite_of_isInfinite hfin hinf' hnan]
      exact hy
  · rw [add_of_isInfinite hinf hnan (h.resolve_left (not_isFinite_of_isInfinite hinf))]
    exact hx

theorem isNaN_add_iff : (x + y).isNaN = true ↔
    x.isNaN = true ∨ y.isNaN = true ∨
      x.isInfinite = true ∧ y.isInfinite = true ∧ x.sign ≠ y.sign := by
  constructor
  · intro h
    by_contra hnot
    rw [not_or, not_or, Bool.not_eq_true, Bool.not_eq_true] at hnot
    obtain ⟨hx, hy, hsigns⟩ := hnot
    have hterms : x.isFinite = true ∨ y.isFinite = true ∨ x.sign = y.sign := by
      by_contra hnone
      rw [not_or, not_or] at hnone
      obtain ⟨hxf, hyf, hs⟩ := hnone
      exact hsigns ⟨(isFinite_or_isInfinite hx).resolve_left hxf,
        (isFinite_or_isInfinite hy).resolve_left hyf, hs⟩
    rw [isNaN_add hx hy hterms] at h
    cases h
  · intro h
    show (add x y).isNaN = true
    rcases h with hx | hy | ⟨hx, hy, hs⟩
    · rw [add, hx, Bool.true_or, if_pos rfl]
      decide
    · rw [add, hy, Bool.or_true, if_pos rfl]
      decide
    · rw [add, hx, hy, Bool.true_and, if_pos rfl, if_pos (bne_iff_ne.mpr hs), ite_self]
      decide

/-- Sums grow with their terms. -/
theorem add_le_add (hx : x ≤ x') (hy : y ≤ y') (h : (x + y).isNaN = false)
    (h' : (x' + y').isNaN = false) : x + y ≤ x' + y' := by
  rcases add_cases h with ⟨hxf, hyf⟩ | ⟨hxi, hsum⟩ | ⟨hxf, hyi, hsum⟩
  · rcases add_cases h' with ⟨hxf', hyf'⟩ | ⟨hxi', hsum'⟩ | ⟨hxf', hyi', hsum'⟩
    · refine le_iff.mpr ⟨h, h', ?_⟩
      rw [(add_of_isFinite hxf hyf).2, (add_of_isFinite hxf' hyf').2]
      exact roundedOrdinal_mono
        (Int.add_le_add (scaled_mono (le_iff.mp hx).2.2) (scaled_mono (le_iff.mp hy).2.2))
    · rw [hsum']
      exact le_of_isInfinite_right hx hxf hxi' h
    · rw [hsum']
      exact le_of_isInfinite_right hy hyf hyi' h
  · rw [hsum]
    rcases add_cases h' with ⟨hxf', -⟩ | ⟨-, hsum'⟩ | ⟨hxf', -, -⟩
    · exact le_of_isInfinite_left hx hxi hxf' h'
    · rw [hsum']
      exact hx
    · exact le_of_isInfinite_left hx hxi hxf' h'
  · rw [hsum]
    rcases add_cases h' with ⟨-, hyf'⟩ | ⟨hxi', hsum'⟩ | ⟨-, -, hsum'⟩
    · exact le_of_isInfinite_left hy hyi hyf' h'
    · rw [hsum']
      exact le_of_isInfinite_right hx hxf hxi' (isNaN_left_of_le hy)
    · rw [hsum']
      exact hy

theorem sign_of_zero_le_of_isInfinite (h : zero ≤ x) (hx : x.isInfinite = true) :
    x.sign = false := by
  have hle := (zero_le_iff.mp h).2
  rw [ordinal_of_isInfinite hx] at hle
  cases hs : x.sign with
  | false => rfl
  | true =>
    rw [hs, if_pos rfl] at hle
    exact absurd hle (by decide)

theorem isNaN_add_of_zero_le (hx : zero ≤ x) (hy : zero ≤ y) : (x + y).isNaN = false := by
  have hx' := isNaN_right_of_le hx
  have hy' := isNaN_right_of_le hy
  refine isNaN_add hx' hy' ?_
  rcases isFinite_or_isInfinite hx' with hfin | hinf
  · exact .inl hfin
  rcases isFinite_or_isInfinite hy' with hfin' | hinf'
  · exact .inr (.inl hfin')
  · rw [sign_of_zero_le_of_isInfinite hx hinf, sign_of_zero_le_of_isInfinite hy hinf']
    exact .inr (.inr rfl)

theorem ordinal_add_zero (h : x.isNaN = false) :
    (x + zero).isNaN = false ∧ (x + zero).ordinal = x.ordinal := by
  have hzero : zero.isFinite = true := by decide
  rcases isFinite_or_isInfinite h with hfin | hinf
  · have hscaled : zero.scaled = 0 := by decide
    obtain ⟨hnan, hordinal⟩ := add_of_isFinite hfin hzero
    rw [hscaled, Int.add_zero, roundedOrdinal_scaled h] at hordinal
    exact ⟨hnan, hordinal⟩
  · rw [add_of_isInfinite hinf (by rw [h, isNaN_zero, Bool.or_false]) (.inl hzero)]
    exact ⟨h, rfl⟩

theorem le_add_zero (h : x.isNaN = false) : x ≤ x + zero := by
  obtain ⟨hnan, hordinal⟩ := ordinal_add_zero h
  exact le_iff.mpr ⟨h, hnan, Int.le_of_eq hordinal.symm⟩

theorem add_zero_le (h : x.isNaN = false) : x + zero ≤ x := by
  obtain ⟨hnan, hordinal⟩ := ordinal_add_zero h
  exact le_iff.mpr ⟨hnan, h, Int.le_of_eq hordinal⟩

/-- A sum of numbers from zero upwards is not below its first term. -/
theorem le_add_right (hx : zero ≤ x) (hy : zero ≤ y) : x ≤ x + y := by
  have hx' := isNaN_right_of_le hx
  have hle := add_le_add (le_refl hx') hy (ordinal_add_zero hx').1 (isNaN_add_of_zero_le hx hy)
  exact le_trans (le_add_zero hx') hle

theorem zero_le_add (hx : zero ≤ x) (hy : zero ≤ y) : zero ≤ x + y :=
  le_trans hx (le_add_right hx hy)

/-! ## Multiplication -/

theorem magnitude_of_sign (h : zero ≤ x) (hs : x.sign = true) : x.magnitude = 0 := by
  have hle := (zero_le_iff.mp h).2
  rw [ordinal, hs, if_pos rfl] at hle
  have hbody : x.body = 0 := by omega
  rw [magnitude, hbody]
  rfl

theorem mul_eq_round (hx : x.isFinite = true) (hy : y.isFinite = true) :
    x * y = round (x.sign != y.sign) (x.magnitude * y.magnitude) unitsPerOne := by
  show mul x y = _
  simp only [mul, isNaN_of_isFinite hx, isNaN_of_isFinite hy, isInfinite_of_isFinite hx,
    isInfinite_of_isFinite hy, Bool.or_self, Bool.false_eq_true, if_false]

theorem mul_of_isFinite (hx : zero ≤ x) (hy : zero ≤ y) (hxf : x.isFinite = true)
    (hyf : y.isFinite = true) :
    (x * y).isNaN = false ∧
      (x * y).ordinal = roundBody (x.magnitude * y.magnitude) unitsPerOne := by
  rw [mul_eq_round hxf hyf]
  refine ⟨isNaN_round _ _ _, ?_⟩
  rw [ordinal_round]
  split
  · -- One of them is `-0`, and so is their product.
    rename_i hs
    have hzero : x.magnitude * y.magnitude = 0 := by
      cases hxs : x.sign with
      | true => rw [magnitude_of_sign hx hxs, Nat.zero_mul]
      | false =>
        rw [hxs, Bool.false_bne] at hs
        rw [magnitude_of_sign hy hs, Nat.mul_zero]
    rw [hzero, roundBody_zero]
    rfl
  · rfl

theorem zero_le_mul (hx : zero ≤ x) (hy : zero ≤ y) (hxf : x.isFinite = true)
    (hyf : y.isFinite = true) : zero ≤ x * y := by
  obtain ⟨hnan, hordinal⟩ := mul_of_isFinite hx hy hxf hyf
  rw [zero_le_iff, hordinal]
  exact ⟨hnan, Int.natCast_nonneg _⟩

theorem magnitude_le_of_le (hx : zero ≤ x) (h : x ≤ y) : x.magnitude ≤ y.magnitude :=
  magnitudeOf_strictMono.monotone (body_le_of_le hx h)

theorem unitsPerOne_pos : 0 < unitsPerOne := by decide +kernel

/-- Products of finite numbers from zero upwards grow with their factors. -/
theorem mul_le_mul (hx : zero ≤ x) (hxx : x ≤ x') (hy : zero ≤ y) (hyy : y ≤ y')
    (hxf : x'.isFinite = true) (hyf : y'.isFinite = true) : x * y ≤ x' * y' := by
  obtain ⟨hnan, hordinal⟩ :=
    mul_of_isFinite hx hy (isFinite_of_le hx hxx hxf) (isFinite_of_le hy hyy hyf)
  obtain ⟨hnan', hordinal'⟩ := mul_of_isFinite (le_trans hx hxx) (le_trans hy hyy) hxf hyf
  refine le_iff.mpr ⟨hnan, hnan', ?_⟩
  rw [hordinal, hordinal']
  exact Int.ofNat_le.mpr (roundBody_mono unitsPerOne_pos
    (Nat.mul_le_mul (magnitude_le_of_le hx hxx) (magnitude_le_of_le hy hyy)))

end

end Binary64
end Contestant
