import Contestant.Proofs.Scoring.Ranking
import Contestant.Scoring.Tally
import Mathlib.Data.List.Perm.Basic

/-!
What a tally says of each problem.

The problems of some submissions are listed once each and in ascending order, and the result on a
problem is the largest of its scores, provided that it is positive.  `resultOn?_eq_some_iff` says
this without the fold that computes it, in terms of which submissions there are.  The largest score
is one bit pattern only because it is positive: among not-a-numbers and zeros the fold would keep
the one it meets first.
-/

namespace Contestant

namespace Binary64

section

variable {x y : Binary64}

theorem max_eq_or (x y : Binary64) : x.max y = x ∨ x.max y = y := by
  simp only [max]
  split
  · exact .inr rfl
  · split
    · exact .inl rfl
    · split
      · exact .inr rfl
      · exact .inl rfl

theorem le_max_left (hx : x.isNaN = false) : x ≤ x.max y := by
  simp only [max, hx, Bool.false_eq_true, if_false]
  split
  · exact le_refl hx
  · split
    · rename_i hlt
      exact le_of_lessThan hlt
    · exact le_refl hx

theorem le_max_right (hy : y.isNaN = false) : y ≤ x.max y := by
  simp only [max, hy, Bool.false_eq_true, if_false]
  split
  · exact le_refl hy
  · rename_i hx
    have hx := Bool.eq_false_iff.mpr hx
    split
    · exact le_refl hy
    · rename_i hlt
      simp only [lessThan, hx, hy, Bool.not_false, Bool.true_and, decide_eq_true_eq] at hlt
      exact le_iff.mpr ⟨hy, hx, Int.not_lt.mp hlt⟩

theorem foldl_max_mem (first : Binary64) (rest : List Binary64) :
    rest.foldl max first ∈ first :: rest := by
  induction rest generalizing first with
  | nil => exact List.mem_cons_self
  | cons next rest ih =>
    rw [List.foldl_cons]
    rcases List.mem_cons.mp (ih (first.max next)) with h | h
    · rw [h]
      rcases max_eq_or first next with hmax | hmax <;> rw [hmax]
      · exact List.mem_cons_self
      · exact List.mem_cons_of_mem _ List.mem_cons_self
    · exact List.mem_cons_of_mem _ (List.mem_cons_of_mem _ h)

theorem le_foldl_max (first : Binary64) (rest : List Binary64) :
    ∀ x ∈ first :: rest, x.isNaN = false → x ≤ rest.foldl max first := by
  induction rest generalizing first with
  | nil =>
    intro x hx hnan
    rw [List.mem_singleton.mp hx] at hnan ⊢
    exact le_refl hnan
  | cons next rest ih =>
    intro x hx hnan
    rw [List.foldl_cons]
    have hmax : ∀ z, z ≤ first.max next → z ≤ rest.foldl max (first.max next) := fun z hz =>
      le_trans hz (ih (first.max next) _ List.mem_cons_self (isNaN_right_of_le hz))
    rcases List.mem_cons.mp hx with rfl | hx
    · exact hmax _ (le_max_left hnan)
    rcases List.mem_cons.mp hx with rfl | hx
    · exact hmax _ (le_max_right hnan)
    · exact ih (first.max next) x (List.mem_cons_of_mem _ hx) hnan

end

end Binary64

namespace Tally

/-! ## The problems -/

theorem nodup_eraseDups (ids : List Int) : ids.eraseDups.Nodup := by
  induction hn : ids.length using Nat.strong_induction_on generalizing ids with
  | _ n ih =>
    cases ids with
    | nil => exact List.nodup_nil
    | cons id rest =>
      rw [List.eraseDups_cons, List.nodup_cons]
      constructor
      · simp [List.mem_eraseDups]
      · have hlength : (rest.filter fun other => !other == id).length < n := by
          rw [← hn, List.length_cons]
          exact Nat.lt_succ_of_le (List.length_filter_le _ _)
        exact ih _ hlength _ rfl

theorem mem_problems {records : List Submission} {problem : Int} :
    problem ∈ problems records ↔ ∃ s ∈ records, s.problem = problem := by
  rw [problems, List.mem_mergeSort, List.mem_eraseDups, List.mem_map]

theorem nodup_problems (records : List Submission) : (problems records).Nodup :=
  (List.mergeSort_perm _ _).nodup_iff.mpr (nodup_eraseDups _)

theorem pairwise_problems (records : List Submission) :
    (problems records).Pairwise (· ≤ ·) := by
  have hsorted : (problems records).Pairwise fun a b => decide (a ≤ b) = true := by
    refine List.pairwise_mergeSort (fun a b c hab hbc => ?_) (fun a b => ?_) _
    · exact decide_eq_true (Int.le_trans (of_decide_eq_true hab) (of_decide_eq_true hbc))
    · simpa using Int.le_total a b
  exact hsorted.imp of_decide_eq_true

/-! ## The result on a problem -/

section

variable {records records' : List Submission} {problem : Int}

theorem mem_submissionsOn {s : Submission} :
    s ∈ submissionsOn problem records ↔ s ∈ records ∧ s.problem = problem := by
  rw [submissionsOn, List.mem_filter, decide_eq_true_eq]

theorem isSolved_iff :
    isSolved (submissionsOn problem records) = true ↔
      ∃ s ∈ records, s.problem = problem ∧ s.isFullSolve = true := by
  simp only [isSolved, List.any_eq_true, mem_submissionsOn, and_assoc]

/-- A score that a submission on a problem was awarded. -/
def Awarded (records : List Submission) (problem : Int) (score : Binary64) : Prop :=
  ∃ s ∈ records, s.problem = problem ∧ s.score = some score

theorem mem_scores_iff {score : Binary64} :
    score ∈ (submissionsOn problem records).filterMap Submission.score ↔
      Awarded records problem score := by
  simp only [List.mem_filterMap, mem_submissionsOn, Awarded, and_assoc]

theorem bestScore?_mem {best : Binary64}
    (h : bestScore? (submissionsOn problem records) = some best) :
    Awarded records problem best ∧
      ∀ score, Awarded records problem score → score.isNaN = false → score ≤ best := by
  simp only [← mem_scores_iff]
  simp only [bestScore?] at h
  split at h
  next => cases h
  next first rest hscores =>
    cases h
    rw [hscores]
    exact ⟨Binary64.foldl_max_mem first rest, Binary64.le_foldl_max first rest⟩

theorem exists_bestScore? {score : Binary64} (h : Awarded records problem score) :
    ∃ best, bestScore? (submissionsOn problem records) = some best := by
  rw [← mem_scores_iff] at h
  simp only [bestScore?]
  split
  next hscores =>
    rw [hscores] at h
    cases h
  next first rest _ => exact ⟨_, rfl⟩

/-- The result on a problem has the largest of its scores, which is positive, and tells whether
the problem is fully solved. -/
theorem resultOn?_eq_some_iff {r : ProblemResult} :
    resultOn? records problem = some r ↔
      r.problem = problem ∧ r.bestScore.isPositive = true ∧
      Awarded records problem r.bestScore ∧
      (∀ score, Awarded records problem score → score.isNaN = false → score ≤ r.bestScore) ∧
      r.fullySolved = isSolved (submissionsOn problem records) := by
  simp only [resultOn?]
  constructor
  · intro h
    split at h
    next best hbest =>
      split at h
      next hpositive =>
        cases h
        obtain ⟨hawarded, hmax⟩ := bestScore?_mem hbest
        exact ⟨rfl, hpositive, hawarded, hmax, rfl⟩
      next => cases h
    next => cases h
  · rintro ⟨rfl, hpositive, hawarded, hmax, hsolved⟩
    obtain ⟨best, hbest⟩ := exists_bestScore? hawarded
    obtain ⟨hawarded', hmax'⟩ := bestScore?_mem hbest
    have hle := hmax' _ hawarded (Binary64.isPositive_iff.mp hpositive).1
    have hge := hmax _ hawarded' (Binary64.isNaN_right_of_le hle)
    have heq : r.bestScore = best := Binary64.eq_of_le_of_le hpositive hle hge
    rw [hbest]
    simp only [← heq, hpositive, if_true, ← hsolved]

/-- A positive score gives the problem a result, with at least that score. -/
theorem exists_resultOn? {score : Binary64} (h : Awarded records problem score)
    (hpositive : score.isPositive = true) :
    ∃ r, resultOn? records problem = some r ∧ score ≤ r.bestScore := by
  obtain ⟨best, hbest⟩ := exists_bestScore? h
  obtain ⟨hawarded, hmax⟩ := bestScore?_mem hbest
  have hle := hmax score h (Binary64.isPositive_iff.mp hpositive).1
  refine ⟨⟨problem, best, isSolved (submissionsOn problem records)⟩, ?_, hle⟩
  exact resultOn?_eq_some_iff.mpr
    ⟨rfl, Binary64.isPositive_of_le hpositive hle, hawarded, hmax, rfl⟩

theorem mem_results {r : ProblemResult} :
    r ∈ (ofSubmissions records).results ↔ resultOn? records r.problem = some r := by
  simp only [ofSubmissions, ProblemResult.mem_sort, List.mem_filterMap]
  constructor
  · rintro ⟨problem, -, hr⟩
    obtain ⟨rfl, -⟩ := resultOn?_eq_some_iff.mp hr
    exact hr
  · intro hr
    obtain ⟨-, -, ⟨s, hs, hproblem, -⟩, -⟩ := resultOn?_eq_some_iff.mp hr
    exact ⟨r.problem, mem_problems.mpr ⟨s, hs, hproblem⟩, hr⟩

/-! ## The same submissions -/

theorem problems_eq (h : ∀ s, s ∈ records ↔ s ∈ records') :
    problems records = problems records' := by
  have hperm : (problems records).Perm (problems records') := by
    rw [List.perm_ext_iff_of_nodup (nodup_problems _) (nodup_problems _)]
    intro problem
    simp only [mem_problems, h]
  exact hperm.eq_of_pairwise (fun _ _ _ _ => Int.le_antisymm) (pairwise_problems _)
    (pairwise_problems _)

theorem isSolved_eq (h : ∀ s, s ∈ records ↔ s ∈ records') (problem : Int) :
    isSolved (submissionsOn problem records) = isSolved (submissionsOn problem records') := by
  rw [Bool.eq_iff_iff, isSolved_iff, isSolved_iff]
  simp only [h]

theorem resultOn?_eq (h : ∀ s, s ∈ records ↔ s ∈ records') (problem : Int) :
    resultOn? records problem = resultOn? records' problem := by
  ext r
  simp only [resultOn?_eq_some_iff, Awarded, h, isSolved_eq h]

/-- A tally depends only on which submissions there are. -/
theorem ofSubmissions_eq (h : ∀ s, s ∈ records ↔ s ∈ records') :
    ofSubmissions records = ofSubmissions records' := by
  have hresults : resultOn? records = resultOn? records' := funext (resultOn?_eq h)
  simp only [ofSubmissions, problems_eq h, hresults, isSolved_eq h]

end

end Tally
end Contestant
