import Contestant.Proofs.Number.Monotone
import Contestant.Scoring.DecayTable
import Mathlib.Data.List.Basic

/-!
Lists of numbers of which one is nowhere below the other.

If one descending list has, for every bound, no more numbers from the bound upwards than another,
then it is dominated by it place by place.  Of dominated lists the sums are in order, also if each
is weighted with the same factors first: whatever a number loses by moving down, the number that
takes its place makes up for.
-/

namespace Contestant
namespace Scoring

open Binary64 (zero)

/-- The first list is at most the second place by place, and the second may go on.  Both hold
numbers from zero upwards. -/
inductive Dominated : List Binary64 → List Binary64 → Prop
  | nil {ys : List Binary64} (more : ∀ y ∈ ys, zero ≤ y) : Dominated [] ys
  | cons {x y : Binary64} {xs ys : List Binary64} (low : zero ≤ x) (le : x ≤ y)
      (rest : Dominated xs ys) : Dominated (x :: xs) (y :: ys)

section

variable {xs ys : List Binary64}

/-- How many numbers of a list are not below a bound. -/
def countFrom (bound : Binary64) (xs : List Binary64) : Nat := xs.countP bound.atMost

theorem countFrom_cons_of_le {bound x : Binary64} (h : bound ≤ x) (xs : List Binary64) :
    countFrom bound (x :: xs) = countFrom bound xs + 1 :=
  List.countP_cons_of_pos h

theorem countFrom_eq_zero {bound x : Binary64} (hbound : ¬ bound ≤ x)
    (hxs : ∀ z ∈ xs, z ≤ x) : countFrom bound xs = 0 :=
  List.countP_eq_zero.mpr fun z hz hle => hbound (Binary64.le_trans hle (hxs z hz))

theorem dominated_of_countFrom_le (hx : xs.Pairwise fun x y => y ≤ x)
    (hy : ys.Pairwise fun x y => y ≤ x) (hxs : ∀ x ∈ xs, zero ≤ x) (hys : ∀ y ∈ ys, zero ≤ y)
    (hcount : ∀ bound, countFrom bound xs ≤ countFrom bound ys) : Dominated xs ys := by
  induction xs generalizing ys with
  | nil => exact .nil hys
  | cons x xs ih =>
    obtain ⟨hmax, hx⟩ := List.pairwise_cons.mp hx
    obtain ⟨hlow, hxs⟩ := List.forall_mem_cons.mp hxs
    have hself := Binary64.le_refl (Binary64.isNaN_right_of_le hlow)
    -- Counted from the largest number of the first list, the second has a number too.
    have hpos : 0 < countFrom x ys := by
      have hle := hcount x
      rw [countFrom_cons_of_le hself] at hle
      omega
    obtain ⟨z, hz, hxz⟩ := List.countP_pos_iff.mp hpos
    cases ys with
    | nil => cases hz
    | cons y ys =>
      obtain ⟨hmax', hy⟩ := List.pairwise_cons.mp hy
      have hxy : x ≤ y := by
        rcases List.mem_cons.mp hz with rfl | hz
        · exact hxz
        · exact Binary64.le_trans hxz (hmax' z hz)
      refine .cons hlow hxy (ih hx hy hxs (List.forall_mem_cons.mp hys).2 fun bound => ?_)
      by_cases hbound : bound ≤ x
      · have hle := hcount bound
        rw [countFrom_cons_of_le hbound,
          countFrom_cons_of_le (Binary64.le_trans hbound hxy)] at hle
        omega
      · rw [countFrom_eq_zero hbound hmax]
        exact Nat.zero_le _

/-! ## Sums -/

theorem le_foldl_add {a : Binary64} (ha : zero ≤ a) (hys : ∀ y ∈ ys, zero ≤ y) :
    a ≤ ys.foldl (· + ·) a := by
  induction ys generalizing a with
  | nil => exact Binary64.le_refl (Binary64.isNaN_right_of_le ha)
  | cons y ys ih =>
    obtain ⟨hy, hys⟩ := List.forall_mem_cons.mp hys
    calc a ≤ a + y := Binary64.le_add_right ha hy
      _ ≤ ys.foldl (· + ·) (a + y) := ih (Binary64.zero_le_add ha hy) hys

theorem Dominated.foldl_add_le (h : Dominated xs ys) {a b : Binary64} (ha : zero ≤ a)
    (hab : a ≤ b) : xs.foldl (· + ·) a ≤ ys.foldl (· + ·) b := by
  induction h generalizing a b with
  | nil more => exact Binary64.le_trans hab (le_foldl_add (Binary64.le_trans ha hab) more)
  | cons low le rest ih =>
    have hnan := Binary64.isNaN_add_of_zero_le ha low
    have hnan' := Binary64.isNaN_add_of_zero_le (Binary64.le_trans ha hab)
      (Binary64.le_trans low le)
    exact ih (Binary64.zero_le_add ha low) (Binary64.add_le_add hab le hnan hnan')

theorem zero_le_negativeZero : zero ≤ Binary64.negativeZero := by
  rw [Binary64.zero_le_iff]
  decide

theorem zero_le_sum (hys : ∀ y ∈ ys, zero ≤ y) : zero ≤ Binary64.sum ys :=
  Binary64.le_trans zero_le_negativeZero (le_foldl_add zero_le_negativeZero hys)

theorem Dominated.sum_le (h : Dominated xs ys) : Binary64.sum xs ≤ Binary64.sum ys :=
  h.foldl_add_le zero_le_negativeZero (Binary64.le_refl (by decide))

/-! ## Weights -/

section

variable {factor x : Binary64} {factors : List Binary64}

theorem isFactor_iff : factor.isFactor = true ↔
    factor.isFinite = true ∧ factor.isPositive = true := by
  rw [Binary64.isFactor, Bool.and_eq_true]

theorem zero_le_weighted (hfactor : factor.isFactor = true) (hx : zero ≤ x)
    (hfinite : x.isFinite = true) : zero ≤ factor * x := by
  obtain ⟨hf, hpositive⟩ := isFactor_iff.mp hfactor
  exact Binary64.zero_le_mul (Binary64.zero_le_of_isPositive hpositive) hx hf hfinite

theorem zero_le_of_mem_zipWith (hfactors : ∀ f ∈ factors, f.isFactor = true)
    (hxs : ∀ x ∈ xs, zero ≤ x) (hfinite : ∀ x ∈ xs, x.isFinite = true) :
    ∀ z ∈ List.zipWith (· * ·) factors xs, zero ≤ z := by
  induction xs generalizing factors with
  | nil => simp
  | cons x xs ih =>
    cases factors with
    | nil => simp
    | cons factor factors =>
      obtain ⟨hfactor, hfactors⟩ := List.forall_mem_cons.mp hfactors
      obtain ⟨hx, hxs⟩ := List.forall_mem_cons.mp hxs
      obtain ⟨hfin, hfinite⟩ := List.forall_mem_cons.mp hfinite
      exact List.forall_mem_cons.mpr ⟨zero_le_weighted hfactor hx hfin, ih hfactors hxs hfinite⟩

/-- Weighting keeps the order of dominated lists, and a table that ends early cuts off both. -/
theorem Dominated.zipWith_mul (h : Dominated xs ys) (hfactors : ∀ f ∈ factors, f.isFactor = true)
    (hfinite : ∀ y ∈ ys, y.isFinite = true) :
    Dominated (List.zipWith (· * ·) factors xs) (List.zipWith (· * ·) factors ys) := by
  induction h generalizing factors with
  | nil more =>
    rw [List.zipWith_nil_right]
    exact .nil (zero_le_of_mem_zipWith hfactors more hfinite)
  | @cons x y xs ys low le rest ih =>
    cases factors with
    | nil => exact .nil (by simp)
    | cons factor factors =>
      obtain ⟨hfactor, hfactors⟩ := List.forall_mem_cons.mp hfactors
      obtain ⟨hfin, hfinite⟩ := List.forall_mem_cons.mp hfinite
      obtain ⟨hf, hpositive⟩ := isFactor_iff.mp hfactor
      have hzero := Binary64.zero_le_of_isPositive hpositive
      have hself := Binary64.le_refl (Binary64.isNaN_right_of_le hzero)
      exact .cons (zero_le_weighted hfactor low (Binary64.isFinite_of_le low le hfin))
        (Binary64.mul_le_mul hzero hself low le hf hfin) (ih hfactors hfinite)

end

end

end Scoring
end Contestant
