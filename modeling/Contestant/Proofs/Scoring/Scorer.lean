import Contestant.Proofs.Scoring.Dominance
import Contestant.Proofs.Scoring.Ranking
import Contestant.Scoring.Scorer

/-!
When scoring succeeds, and how its sums grow with the results.

A tally is scored exactly if each of its scores can be summed, for a decay table has no fault.  Of
two lists of results the one that has more of them from every score upwards has at least the total
and at least the weighted sum of the other, and at least its performance points if the bonus does
not shrink.
-/

namespace Contestant

open Binary64 (zero)

theorem DecayTable.isFactor_of_mem (table : DecayTable) {f : Binary64} (h : f ∈ table.factors) :
    f.isFactor = true := by
  have hfault := table.faultless
  rw [fault?] at hfault
  split at hfault
  · cases hfault
  · rw [Option.map_eq_none_iff, List.find?_eq_none] at hfault
    rw [← List.zipIdx_map_fst 0 table.factors] at h
    obtain ⟨entry, hentry, rfl⟩ := List.mem_map.mp h
    have hfactor := hfault entry hentry
    rw [Bool.not_eq_true, Bool.not_eq_false'] at hfactor
    exact hfactor

theorem DecayTable.ofFactors_of_faultless {factors : List Binary64} (h : fault? factors = none) :
    ofFactors factors = .ok ⟨factors, h⟩ := by
  rw [ofFactors]
  split
  next fault hfault =>
    rw [h] at hfault
    cases hfault
  next => rfl

theorem DecayTable.factors_of_ofFactors {factors : List Binary64} {table : DecayTable}
    (h : ofFactors factors = .ok table) : table.factors = factors := by
  rw [ofFactors] at h
  split at h
  · cases h
  · cases h
    rfl

/-- A table of one entry weighs nothing down, whatever the ratio. -/
theorem DecayTable.geometric_one {ratio : Binary64}
    (h : (ratio.isPositive && ratio.atMost .one) = true) :
    geometric ratio 1 = .ok ⟨[.one], by decide⟩ := by
  have hpower : ratio.power (Int32.ofNat 0).toInt = .one := by
    rw [show (Int32.ofNat 0).toInt = 0 by decide]
    simp [Binary64.power, Binary64.powerLoop]
  have hpowers : powers ratio 1 = [.one] := by
    rw [powers, List.range_one, List.map_singleton, hpower]
  rw [geometric, if_pos h, hpowers]
  exact ofFactors_of_faultless _

namespace Scoring

theorem isScore_iff {x : Binary64} : isScore x = true ↔ x.isFinite = true ∧ zero ≤ x := by
  rw [isScore, Bool.and_eq_true]
  refine and_congr_right fun hfinite => ?_
  have hnan := Binary64.isNaN_of_isFinite hfinite
  simp only [Binary64.isNegative, Binary64.lessThan, Binary64.zero_le_iff, hnan,
    Binary64.isNaN_zero, Binary64.ordinal_zero, Bool.not_false, Bool.true_and, Bool.not_eq_true',
    decide_eq_false_iff_not, Int.not_lt, true_and]

theorem scoreFault?_eq_none_iff {results : List ProblemResult} :
    scoreFault? results = none ↔ ∀ r ∈ results, isScore r.bestScore = true := by
  simp only [scoreFault?, Option.map_eq_none_iff, List.find?_eq_none, Bool.not_eq_true,
    Bool.not_eq_false']

theorem fault?_eq_none_iff {factors : List Binary64} {results : List ProblemResult} :
    fault? factors results = none ↔
      DecayTable.fault? factors = none ∧ ∀ r ∈ results, isScore r.bestScore = true := by
  rw [fault?, Option.or_eq_none_iff, scoreFault?_eq_none_iff]

theorem snapshot_eq_ok_iff {factors : List Binary64} {bonus : SolvedCount → Binary64}
    {results : List ProblemResult} {solved : SolvedCount} {s : Snapshot} :
    snapshot factors bonus results solved = .ok s ↔
      fault? factors results = none ∧
      s = ⟨total results, solved, weighted factors results + bonus solved⟩ := by
  rw [snapshot]
  cases fault? factors results with
  | some fault => exact ⟨nofun, nofun⟩
  | none =>
    rw [Except.ok.injEq]
    exact ⟨fun h => ⟨rfl, h.symm⟩, fun h => h.2.symm⟩

theorem snapshot_eq_error_iff {factors : List Binary64} {bonus : SolvedCount → Binary64}
    {results : List ProblemResult} {solved : SolvedCount} {fault : InputFault} :
    snapshot factors bonus results solved = .error fault ↔ fault? factors results = some fault := by
  rw [snapshot]
  cases fault? factors results with
  | some first => rw [Except.error.injEq, Option.some.injEq]
  | none => exact ⟨nofun, nofun⟩

theorem weighted_eq (factors : List Binary64) (results : List ProblemResult) :
    weighted factors results =
      .sum (List.zipWith (· * ·) factors (ProblemResult.scores results)) := by
  rw [weighted, ProblemResult.scores, List.zipWith_map_right]

section

variable {results results' : List ProblemResult}

theorem isScore_of_mem_scores (h : ∀ r ∈ results, isScore r.bestScore = true) :
    ∀ x ∈ ProblemResult.scores results, x.isFinite = true ∧ zero ≤ x := by
  intro x hx
  obtain ⟨r, hr, rfl⟩ := ProblemResult.mem_scores.mp hx
  exact isScore_iff.mp (h r hr)

theorem dominated_scores (h : ∀ r ∈ results, isScore r.bestScore = true)
    (h' : ∀ r ∈ results', isScore r.bestScore = true)
    (hcount : ∀ bound, countFrom bound (results.map ProblemResult.bestScore) ≤
      countFrom bound (results'.map ProblemResult.bestScore)) :
    Dominated (ProblemResult.scores results) (ProblemResult.scores results') := by
  have hscores := isScore_of_mem_scores h
  have hscores' := isScore_of_mem_scores h'
  refine dominated_of_countFrom_le
    (ProblemResult.pairwise_scores fun r hr =>
      Binary64.isNaN_of_isFinite (isScore_iff.mp (h r hr)).1)
    (ProblemResult.pairwise_scores fun r hr =>
      Binary64.isNaN_of_isFinite (isScore_iff.mp (h' r hr)).1)
    (fun x hx => (hscores x hx).2) (fun x hx => (hscores' x hx).2) fun bound => ?_
  simp only [countFrom, (ProblemResult.scores_perm results).countP_eq,
    (ProblemResult.scores_perm results').countP_eq]
  exact hcount bound

theorem zero_le_total (h : ∀ r ∈ results, isScore r.bestScore = true) : zero ≤ total results :=
  zero_le_sum fun x hx => (isScore_of_mem_scores h x hx).2

theorem zero_le_weighted_results {factors : List Binary64}
    (hfactors : ∀ f ∈ factors, f.isFactor = true)
    (h : ∀ r ∈ results, isScore r.bestScore = true) : zero ≤ weighted factors results := by
  have hscores := isScore_of_mem_scores h
  rw [weighted_eq]
  exact zero_le_sum (zero_le_of_mem_zipWith hfactors (fun x hx => (hscores x hx).2)
    fun x hx => (hscores x hx).1)

theorem total_le (h : Dominated (ProblemResult.scores results) (ProblemResult.scores results')) :
    total results ≤ total results' :=
  h.sum_le

theorem weighted_le {factors : List Binary64} (hfactors : ∀ f ∈ factors, f.isFactor = true)
    (hscores : ∀ r ∈ results', isScore r.bestScore = true)
    (h : Dominated (ProblemResult.scores results) (ProblemResult.scores results')) :
    weighted factors results ≤ weighted factors results' := by
  rw [weighted_eq, weighted_eq]
  exact (h.zipWith_mul hfactors fun x hx => (isScore_of_mem_scores hscores x hx).1).sum_le

end

/-- Adding a finite bonus keeps the order of two numbers, if the bonus does not shrink. -/
theorem add_bonus_le {x y b c : Binary64} (h : x ≤ y) (hbc : b ≤ c) (hb : b.isFinite = true)
    (hc : c.isFinite = true) : x + b ≤ y + c := by
  refine Binary64.add_le_add h hbc ?_ ?_
  · exact Binary64.isNaN_add (Binary64.isNaN_left_of_le h) (Binary64.isNaN_of_isFinite hb)
      (.inr (.inl hb))
  · exact Binary64.isNaN_add (Binary64.isNaN_right_of_le h) (Binary64.isNaN_of_isFinite hc)
      (.inr (.inl hc))

/-! ## The threshold bonus -/

section

variable {minSolved : SolvedCount} {amount : Binary64}

theorem isFinite_threshold (h : amount.isFinite = true) (n : SolvedCount) :
    ((Bonus.threshold minSolved amount).points n).isFinite = true := by
  rw [Bonus.points]
  split
  · exact h
  · decide

/-- Once there, a bonus from zero upwards stays. -/
theorem threshold_mono (h : zero ≤ amount) {m n : SolvedCount} (hmn : m ≤ n) :
    (Bonus.threshold minSolved amount).points m ≤ (Bonus.threshold minSolved amount).points n := by
  have hself := Binary64.le_refl (Binary64.isNaN_right_of_le h)
  rw [Bonus.points, Bonus.points]
  by_cases hm : minSolved ≤ m
  · rw [if_pos hm, if_pos (UInt32.le_trans hm hmn)]
    exact hself
  · rw [if_neg hm]
    split
    · exact h
    · exact Binary64.le_refl (by decide)

end

/-! ## Snapshots -/

/-- Results of which there are more from every score upwards come to a snapshot that is at least as
large, if the bonus is finite and does not shrink. -/
theorem snapshot_le (table : DecayTable) (bonus : SolvedCount → Binary64)
    {results results' : List ProblemResult} (h : ∀ r ∈ results, isScore r.bestScore = true)
    (h' : ∀ r ∈ results', isScore r.bestScore = true)
    (hcount : ∀ bound, countFrom bound (results.map ProblemResult.bestScore) ≤
      countFrom bound (results'.map ProblemResult.bestScore)) (solved solved' : SolvedCount) :
    ∃ s s', snapshot table.factors bonus results solved = .ok s ∧
      snapshot table.factors bonus results' solved' = .ok s' ∧
      s.solved = solved ∧ s'.solved = solved' ∧ s.totalPoints ≤ s'.totalPoints ∧
      ((bonus solved).isFinite = true → (bonus solved').isFinite = true →
        bonus solved ≤ bonus solved' → s.performancePoints ≤ s'.performancePoints) := by
  have hdominated := dominated_scores h h' hcount
  refine ⟨_, _, snapshot_eq_ok_iff.mpr ⟨fault?_eq_none_iff.mpr ⟨table.faultless, h⟩, rfl⟩,
    snapshot_eq_ok_iff.mpr ⟨fault?_eq_none_iff.mpr ⟨table.faultless, h'⟩, rfl⟩, rfl, rfl,
    total_le hdominated, fun hfinite hfinite' hbonus => ?_⟩
  exact add_bonus_le (weighted_le (fun _ hf => table.isFactor_of_mem hf) h' hdominated) hbonus
    hfinite hfinite'

end Scoring

theorem Scorer.compute_of_scores (scorer : Scorer) {results : List ProblemResult}
    (h : ∀ r ∈ results, Scoring.isScore r.bestScore = true) :
    scorer.compute results = .ok ⟨Scoring.total results, Scoring.solvedAmong results,
      Scoring.weighted scorer.table.factors results +
        scorer.bonus.points (Scoring.solvedAmong results)⟩ :=
  Scoring.snapshot_eq_ok_iff.mpr
    ⟨Scoring.fault?_eq_none_iff.mpr ⟨scorer.table.faultless, h⟩, rfl⟩

theorem Scorer.computeTally_eq_ok_iff {scorer : Scorer} {tally : Tally} {s : Snapshot} :
    scorer.computeTally tally = .ok s ↔
      (∀ r ∈ tally.results, Scoring.isScore r.bestScore = true) ∧
      s = ⟨Scoring.total tally.results, tally.solved,
        Scoring.weighted scorer.table.factors tally.results +
          scorer.bonus.points tally.solved⟩ := by
  rw [computeTally, Scoring.snapshot_eq_ok_iff, Scoring.fault?_eq_none_iff]
  simp only [scorer.table.faultless, true_and]

end Contestant
