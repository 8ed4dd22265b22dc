import Contestant.Proofs.Scoring.Scorer

/-!
The order in which results arrive does not matter.

Rounded sums depend on the order of their terms, and sorted results still depend on the order they
came in wherever two of them tie.  But all that the sums see of the sorted results are the scores,
and the solved problems are only counted, so neither a tie on score and problem nor one between
results of which only one is solved shows.
-/

namespace Contestant
namespace Scoring

variable {results results' : List ProblemResult}

theorem solvedAmong_eq_of_perm (h : results.Perm results') :
    solvedAmong results = solvedAmong results' := by
  rw [solvedAmong, solvedAmong, h.countP_eq]

theorem total_eq_of_perm (h : results.Perm results') : total results = total results' := by
  show Binary64.sum (ProblemResult.scores results) = Binary64.sum (ProblemResult.scores results')
  rw [ProblemResult.scores_eq_of_perm h]

theorem weighted_eq_of_perm (factors : List Binary64) (h : results.Perm results') :
    weighted factors results = weighted factors results' := by
  rw [weighted_eq, weighted_eq, ProblemResult.scores_eq_of_perm h]

/-- Which fault is found first may change, but not whether there is one. -/
theorem fault?_eq_none_iff_of_perm (factors : List Binary64) (h : results.Perm results') :
    fault? factors results = none ↔ fault? factors results' = none := by
  rw [fault?_eq_none_iff, fault?_eq_none_iff]
  simp only [h.mem_iff]

/-- Results in any other order come to the same snapshot, bit for bit, or are refused as well. -/
theorem reordered_results_score_alike (factors : List Binary64) (bonus : SolvedCount → Binary64)
    (h : results.Perm results') :
    (∃ s, compute factors bonus results = .ok s ∧ compute factors bonus results' = .ok s) ∨
      ∃ fault fault', compute factors bonus results = .error fault ∧
        compute factors bonus results' = .error fault' := by
  have hiff := fault?_eq_none_iff_of_perm factors h
  by_cases hfault : fault? factors results = none
  · left
    refine ⟨_, snapshot_eq_ok_iff.mpr ⟨hfault, rfl⟩, snapshot_eq_ok_iff.mpr ⟨hiff.mp hfault, ?_⟩⟩
    rw [solvedAmong_eq_of_perm h, total_eq_of_perm h, weighted_eq_of_perm factors h]
  · right
    obtain ⟨fault, hsome⟩ := Option.ne_none_iff_exists'.mp hfault
    obtain ⟨fault', hsome'⟩ := Option.ne_none_iff_exists'.mp fun hnone => hfault (hiff.mpr hnone)
    refine ⟨fault, fault', ?_, ?_⟩
    · simp only [compute, snapshot, hsome]
    · simp only [compute, snapshot, hsome']

/-- Two ties: on the score, and on the problem with the two zeros as scores. -/
theorem reordered_results_score_alike_ties :
    let a : ProblemResult := ⟨1, .one, true⟩
    let b : ProblemResult := ⟨1, .one, false⟩
    let c : ProblemResult := ⟨2, .zero, false⟩
    let d : ProblemResult := ⟨2, .negativeZero, true⟩
    let bonus : SolvedCount → Binary64 := fun n => if n = 2 then .nan else .negativeZero
    [a, b, c, d].Perm [d, b, c, a] ∧
    ((∃ s, compute [.one] bonus [a, b, c, d] = .ok s ∧
        compute [.one] bonus [d, b, c, a] = .ok s) ∨
      ∃ fault fault', compute [.one] bonus [a, b, c, d] = .error fault ∧
        compute [.one] bonus [d, b, c, a] = .error fault') := by
  intro a b c d bonus
  have hperm : [a, b, c, d].Perm [d, b, c, a] := by decide
  exact ⟨hperm, reordered_results_score_alike [.one] bonus hperm⟩

end Scoring
end Contestant
