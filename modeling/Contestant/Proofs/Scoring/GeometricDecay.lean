import Contestant.Proofs.Number.UnitInterval
import Contestant.Proofs.Scoring.Scorer

/-!
Geometric decay discounts.

The powers of a ratio between zero and one lie between zero and one, so a table of them makes no
score larger and, as it starts with the power of exponent zero, leaves the best one as it is.  The
weighted sum then lies between the best score and the sum of all.
-/

namespace Contestant

open Binary64 (zero one InUnit)

namespace DecayTable

variable {ratio : Binary64} {entries : Nat} {table : DecayTable}

theorem factors_of_geometric (h : geometric ratio entries = .ok table) :
    InUnit ratio ∧ table.factors = powers ratio entries := by
  rw [geometric] at h
  split at h
  · rename_i hratio
    obtain ⟨hpositive, hone⟩ := Bool.and_eq_true_iff.mp hratio
    exact ⟨⟨Binary64.zero_le_of_isPositive hpositive, hone⟩, factors_of_ofFactors h⟩
  · cases h

theorem powers_succ (ratio : Binary64) (n : Nat) :
    powers ratio (n + 1) =
      one :: (List.range n).map fun i => ratio.power (Int32.ofNat (i + 1)).toInt := by
  rw [powers, List.range_succ_eq_map, List.map_cons, List.map_map,
    show (Int32.ofNat 0).toInt = 0 by decide, Binary64.power_zero]
  rfl

/-- An index below `2^31` is an exponent that is not negative. -/
theorem inUnit_of_mem_powers (hratio : InUnit ratio) (hentries : entries ≤ 2 ^ 31)
    {factor : Binary64} (h : factor ∈ powers ratio entries) : InUnit factor := by
  obtain ⟨i, hi, rfl⟩ := List.mem_map.mp h
  rw [Int32.toInt_ofNat_of_lt (Nat.lt_of_lt_of_le (List.mem_range.mp hi) hentries)]
  exact hratio.power i

theorem exists_factors_eq_cons (h : geometric ratio entries = .ok table) :
    ∃ rest, table.factors = one :: rest := by
  obtain ⟨-, hfactors⟩ := factors_of_geometric h
  cases entries with
  | zero =>
    have hfault := table.faultless
    rw [hfactors] at hfault
    cases hfault
  | succ n => exact ⟨_, hfactors.trans (powers_succ ratio n)⟩

end DecayTable

namespace Scoring

section

variable {x : Binary64} {xs factors : List Binary64} {results : List ProblemResult}

theorem le_sum_cons (hx : zero ≤ x) (hxs : ∀ y ∈ xs, zero ≤ y) : x ≤ Binary64.sum (x :: xs) := by
  calc x ≤ Binary64.negativeZero + x := Binary64.le_add_left zero_le_negativeZero hx
    _ ≤ xs.foldl (· + ·) (Binary64.negativeZero + x) :=
        le_foldl_add (Binary64.zero_le_add zero_le_negativeZero hx) hxs

/-- Scores that are weighted down are dominated by what they were. -/
theorem dominated_zipWith_mul (hfactors : ∀ f ∈ factors, InUnit f)
    (hxs : ∀ x ∈ xs, x.isFinite = true ∧ zero ≤ x) :
    Dominated (List.zipWith (· * ·) factors xs) xs := by
  induction xs generalizing factors with
  | nil =>
    rw [List.zipWith_nil_right]
    exact .nil (List.forall_mem_nil _)
  | cons x xs ih =>
    obtain ⟨⟨hfinite, hx⟩, hrest⟩ := List.forall_mem_cons.mp hxs
    cases factors with
    | nil => exact .nil fun y hy => (hxs y hy).2
    | cons factor factors =>
      obtain ⟨hfactor, hfactors⟩ := List.forall_mem_cons.mp hfactors
      have hself := Binary64.le_refl (Binary64.isNaN_right_of_le hx)
      exact .cons (Binary64.zero_le_mul hfactor.zero_le hx hfactor.isFinite hfinite)
        (hfactor.mul_le hx hself hfinite) (ih hfactors hrest)

theorem weighted_le_total (hfactors : ∀ f ∈ factors, InUnit f)
    (h : ∀ r ∈ results, isScore r.bestScore = true) : weighted factors results ≤ total results := by
  rw [weighted_eq]
  exact (dominated_zipWith_mul hfactors (isScore_of_mem_scores h)).sum_le

/-- With a first factor of one the best score counts in full. -/
theorem le_weighted {rest : List Binary64} (hfactors : ∀ f ∈ one :: rest, f.isFactor = true)
    (h : ∀ r ∈ results, isScore r.bestScore = true) {r : ProblemResult} (hr : r ∈ results) :
    r.bestScore ≤ weighted (one :: rest) results := by
  have hscores := isScore_of_mem_scores h
  have hsorted := ProblemResult.pairwise_scores fun r hr =>
    Binary64.isNaN_of_isFinite (isScore_iff.mp (h r hr)).1
  have hmem : r.bestScore ∈ ProblemResult.scores results :=
    ProblemResult.mem_scores.mpr ⟨r, hr, rfl⟩
  rw [weighted_eq]
  generalize ProblemResult.scores results = scores at hscores hsorted hmem
  cases scores with
  | nil => cases hmem
  | cons best others =>
    obtain ⟨⟨hfinite, hbest⟩, hothers⟩ := List.forall_mem_cons.mp hscores
    have hle : r.bestScore ≤ best := by
      rcases List.mem_cons.mp hmem with heq | hmem
      · rw [heq]
        exact Binary64.le_refl (Binary64.isNaN_right_of_le hbest)
      · exact (List.pairwise_cons.mp hsorted).1 _ hmem
    rw [List.zipWith_cons_cons, Binary64.one_mul hfinite]
    exact Binary64.le_trans hle (le_sum_cons hbest
      (zero_le_of_mem_zipWith (List.forall_mem_cons.mp hfactors).2 (fun x hx => (hothers x hx).2)
        fun x hx => (hothers x hx).1))

end

/-- A geometric table starts with one and holds factors above zero and at most one, and without a
bonus the performance points that it gives are at least each single score and at most the total.
The indices have to fit a signed exponent. -/
theorem geometric_decay_discounts {ratio : Binary64} {entries : Nat} (hentries : entries ≤ 2 ^ 31)
    {table : DecayTable} (htable : DecayTable.geometric ratio entries = .ok table) :
    table.factors.head? = some one ∧
    (∀ factor ∈ table.factors, factor.isPositive = true ∧ factor ≤ one) ∧
    ∀ results : List ProblemResult, (∀ r ∈ results, isScore r.bestScore = true) →
      ∃ s, (Scorer.mk table .none).compute results = .ok s ∧
        (∀ r ∈ results, r.bestScore ≤ s.performancePoints) ∧
        s.performancePoints ≤ s.totalPoints := by
  obtain ⟨hratio, hpowers⟩ := DecayTable.factors_of_geometric htable
  obtain ⟨rest, hcons⟩ := DecayTable.exists_factors_eq_cons htable
  have hfactors : ∀ f ∈ table.factors, f.isFactor = true := fun f hf => table.isFactor_of_mem hf
  have hunit : ∀ f ∈ table.factors, InUnit f := fun f hf =>
    DecayTable.inUnit_of_mem_powers hratio hentries (hpowers ▸ hf)
  refine ⟨by rw [hcons, List.head?_cons], fun f hf => ⟨(isFactor_iff.mp (hfactors f hf)).2,
    (hunit f hf).le_one⟩, fun results hscores => ?_⟩
  have hnan := Binary64.isNaN_right_of_le (zero_le_weighted_results hfactors hscores)
  refine ⟨_, Scorer.compute_of_scores _ hscores, fun r hr => ?_, ?_⟩
  · calc r.bestScore ≤ weighted table.factors results := by
          rw [hcons] at hfactors ⊢
          exact le_weighted hfactors hscores hr
      _ ≤ weighted table.factors results + zero := Binary64.le_add_zero hnan
  · calc weighted table.factors results + zero ≤ weighted table.factors results :=
          Binary64.add_zero_le hnan
      _ ≤ total results := weighted_le_total hunit hscores

/-- Four powers of one half. -/
theorem geometric_decay_discounts_halves :
    let half : Binary64 := .ofBody false (1022 * Nat.pow 2 52)
    ∃ table, 4 ≤ 2 ^ 31 ∧ DecayTable.geometric half 4 = .ok table ∧
      table.factors.head? = some one ∧
      (∀ factor ∈ table.factors, factor.isPositive = true ∧ factor ≤ one) ∧
      ∀ results : List ProblemResult, (∀ r ∈ results, isScore r.bestScore = true) →
        ∃ s, (Scorer.mk table .none).compute results = .ok s ∧
          (∀ r ∈ results, r.bestScore ≤ s.performancePoints) ∧
          s.performancePoints ≤ s.totalPoints := by
  intro half
  have hentries : 4 ≤ 2 ^ 31 := by decide
  have hfault : DecayTable.fault? (DecayTable.powers half 4) = none := by decide +kernel
  have htable : DecayTable.geometric half 4 = .ok ⟨_, hfault⟩ := by
    rw [DecayTable.geometric, if_pos (by decide)]
    exact DecayTable.ofFactors_of_faultless hfault
  exact ⟨_, hentries, htable, geometric_decay_discounts hentries htable⟩

end Scoring
end Contestant
