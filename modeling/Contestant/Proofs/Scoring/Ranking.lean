import Contestant.Proofs.Number.Order
import Contestant.Scoring.Tally
import Mathlib.Data.List.Basic

/-!
Results from the strongest to the weakest.

The order of results compares ranks of scores first and problem ids second.  It is total and
transitive, so sorting puts every two results in order, and the scores of sorted results descend.
Scores of one rank are one bit pattern, so the descending scores of some results are the same in
whatever order the results come, and ties between results do not show.
-/

namespace Contestant

/-- Numbers in descending total order are settled by which they are. -/
theorem Binary64.eq_of_perm_of_pairwise {xs ys : List Binary64} (h : xs.Perm ys)
    (hx : xs.Pairwise fun x y => y.rank ≤ x.rank) (hy : ys.Pairwise fun x y => y.rank ≤ x.rank) :
    xs = ys :=
  h.eq_of_pairwise (fun _ _ _ _ hxy hyx => rank_injective (Int.le_antisymm hyx hxy)) hx hy

namespace ProblemResult

theorem precedes_iff {a b : ProblemResult} :
    precedes a b = true ↔
      b.bestScore.rank < a.bestScore.rank ∨
        b.bestScore.rank = a.bestScore.rank ∧ a.problem ≤ b.problem := by
  rw [precedes, order, Ordering.isLE_then_iff_or, Binary64.totalCompare, Int.compare_eq_lt,
    Int.compare_eq_eq, Int.isLE_compare]

theorem rank_le_of_precedes {a b : ProblemResult} (h : precedes a b = true) :
    b.bestScore.rank ≤ a.bestScore.rank := by
  rw [precedes_iff] at h
  omega

theorem precedes_trans (a b c : ProblemResult) (hab : precedes a b = true)
    (hbc : precedes b c = true) : precedes a c = true := by
  rw [precedes_iff] at hab hbc ⊢
  omega

theorem precedes_total (a b : ProblemResult) : (precedes a b || precedes b a) = true := by
  rw [Bool.or_eq_true, precedes_iff, precedes_iff]
  omega

theorem pairwise_sort (results : List ProblemResult) :
    (sort results).Pairwise fun a b => precedes a b = true :=
  List.pairwise_mergeSort precedes_trans precedes_total results

theorem sort_perm (results : List ProblemResult) : (sort results).Perm results :=
  List.mergeSort_perm results precedes

theorem mem_sort {r : ProblemResult} {results : List ProblemResult} :
    r ∈ sort results ↔ r ∈ results :=
  (sort_perm results).mem_iff

/-- The scores of some results, strongest first. -/
def scores (results : List ProblemResult) : List Binary64 := (sort results).map bestScore

theorem mem_scores {results : List ProblemResult} {x : Binary64} :
    x ∈ scores results ↔ ∃ r ∈ results, r.bestScore = x := by
  simp only [scores, List.mem_map, mem_sort]

theorem scores_perm (results : List ProblemResult) :
    (scores results).Perm (results.map bestScore) :=
  (sort_perm results).map bestScore

theorem pairwise_rank_scores (results : List ProblemResult) :
    (scores results).Pairwise fun x y => y.rank ≤ x.rank := by
  rw [scores, List.pairwise_map]
  exact (pairwise_sort results).imp rank_le_of_precedes

theorem pairwise_scores {results : List ProblemResult}
    (h : ∀ r ∈ results, r.bestScore.isNaN = false) :
    (scores results).Pairwise fun x y => y ≤ x := by
  refine (pairwise_rank_scores results).imp_of_mem fun {x y} hx hy hrank => ?_
  obtain ⟨a, ha, rfl⟩ := mem_scores.mp hx
  obtain ⟨b, hb, rfl⟩ := mem_scores.mp hy
  exact Binary64.le_of_rank_le (h b hb) (h a ha) hrank

theorem scores_eq_of_perm {results results' : List ProblemResult} (h : results.Perm results') :
    scores results = scores results' :=
  Binary64.eq_of_perm_of_pairwise
    ((scores_perm results).trans ((h.map bestScore).trans (scores_perm results').symm))
    (pairwise_rank_scores results) (pairwise_rank_scores results')

end ProblemResult
end Contestant
