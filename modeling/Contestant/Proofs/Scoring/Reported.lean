import Contestant.Proofs.Scoring.Ranking
import Contestant.Proofs.Scoring.Tally
import Mathlib.Data.Finset.Card

/-!
A tally by what it reports, without the computation.

`Tally.Reports` describes the tally of some submissions in terms of which submissions there are: a
problem is listed if it has a positive score, with the greatest score that is a number, and solved
problems are counted whatever their score.  The best score and the full solve of a problem may come
from different submissions.  The description leaves no choice: one tally has it.
-/

namespace Contestant

theorem Submission.isFullSolve_iff {s : Submission} :
    s.isFullSolve = true ↔ s.accepted = true ∧ s.caseTotal ≤ s.casePoints := by
  rw [isFullSolve, Bool.and_eq_true]
  rfl

namespace Tally

/-- The problems with a full solve, scored or not. -/
def solvedProblems (records : List Submission) : Finset Int :=
  ((records.filter fun s => s.accepted && s.caseTotal.atMost s.casePoints).map
    Submission.problem).toFinset

/-- The problems with a positive score, solved or not. -/
def scoredProblems (records : List Submission) : Finset Int :=
  ((records.filter fun s => s.score.any Binary64.isPositive).map Submission.problem).toFinset

structure Reports (records : List Submission) (tally : Tally) : Prop where
  nodup : (tally.results.map ProblemResult.problem).Nodup
  listed_iff : ∀ problem, problem ∈ tally.results.map ProblemResult.problem ↔
    ∃ score, Awarded records problem score ∧ score.isPositive = true
  bestScore : ∀ r ∈ tally.results, Awarded records r.problem r.bestScore ∧
    r.bestScore.isNaN = false ∧
    ∀ score, Awarded records r.problem score → score.isNaN = false → score ≤ r.bestScore
  fullySolved : ∀ r ∈ tally.results, r.fullySolved = true ↔ r.problem ∈ solvedProblems records
  /-- Strictly from the strongest to the weakest. -/
  descending : tally.results.Pairwise fun a b =>
    b.bestScore.lessThan a.bestScore = true ∨
      a.bestScore = b.bestScore ∧ a.problem < b.problem
  solved : tally.solved = .ofNat (solvedProblems records).card

variable {records : List Submission} {problem : Int}

/-! ## Solved problems -/

theorem mem_solvedProblems :
    problem ∈ solvedProblems records ↔
      ∃ s ∈ records, s.problem = problem ∧ s.accepted = true ∧ s.caseTotal ≤ s.casePoints := by
  simp only [solvedProblems, List.mem_toFinset, List.mem_map, List.mem_filter]
  constructor
  · rintro ⟨s, ⟨hs, hfull⟩, hproblem⟩
    exact ⟨s, hs, hproblem, Submission.isFullSolve_iff.mp hfull⟩
  · rintro ⟨s, hs, hproblem, hfull⟩
    exact ⟨s, ⟨hs, Submission.isFullSolve_iff.mpr hfull⟩, hproblem⟩

theorem isSolved_iff_mem :
    isSolved (submissionsOn problem records) = true ↔ problem ∈ solvedProblems records := by
  rw [isSolved_iff, mem_solvedProblems]
  simp only [Submission.isFullSolve_iff]

theorem mem_scoredProblems :
    problem ∈ scoredProblems records ↔
      ∃ score, Awarded records problem score ∧ score.isPositive = true := by
  simp only [scoredProblems, List.mem_toFinset, List.mem_map, List.mem_filter,
    Option.any_eq_true]
  constructor
  · rintro ⟨s, ⟨hs, score, hscore, hpositive⟩, hproblem⟩
    exact ⟨score, ⟨s, hs, hproblem, hscore⟩, hpositive⟩
  · rintro ⟨score, ⟨s, hs, hproblem, hscore⟩, hpositive⟩
    exact ⟨s, ⟨hs, score, hscore, hpositive⟩, hproblem⟩

theorem countP_isSolved (records : List Submission) :
    (problems records).countP (fun id => isSolved (submissionsOn id records)) =
      (solvedProblems records).card := by
  have hnodup : ((problems records).filter fun id => isSolved (submissionsOn id records)).Nodup :=
    (nodup_problems records).filter _
  rw [List.countP_eq_length_filter, ← List.toFinset_card_of_nodup hnodup]
  congr 1
  ext problem
  rw [List.mem_toFinset, List.mem_filter, isSolved_iff_mem, mem_problems]
  constructor
  · exact And.right
  · intro hsolved
    obtain ⟨s, hs, hproblem, -⟩ := mem_solvedProblems.mp hsolved
    exact ⟨⟨s, hs, hproblem⟩, hsolved⟩

/-! ## The reported results -/

section

variable {tally : Tally}

theorem Reports.isPositive (h : Reports records tally) {r : ProblemResult}
    (hr : r ∈ tally.results) : r.bestScore.isPositive = true := by
  obtain ⟨score, hawarded, hpositive⟩ := (h.listed_iff r.problem).mp (List.mem_map_of_mem hr)
  obtain ⟨-, -, hmax⟩ := h.bestScore r hr
  exact Binary64.isPositive_of_le hpositive
    (hmax score hawarded (Binary64.isPositive_iff.mp hpositive).1)

theorem Reports.resultOn?_eq (h : Reports records tally) {r : ProblemResult}
    (hr : r ∈ tally.results) : resultOn? records r.problem = some r := by
  obtain ⟨hawarded, -, hmax⟩ := h.bestScore r hr
  refine resultOn?_eq_some_iff.mpr ⟨rfl, h.isPositive hr, hawarded, hmax, ?_⟩
  rw [Bool.eq_iff_iff, h.fullySolved r hr, isSolved_iff_mem]

/-- A report lists the result on each problem that has one, and nothing else. -/
theorem Reports.mem_iff (h : Reports records tally) {r : ProblemResult} :
    r ∈ tally.results ↔ resultOn? records r.problem = some r := by
  refine ⟨h.resultOn?_eq, fun hr => ?_⟩
  obtain ⟨-, hpositive, hawarded, -⟩ := resultOn?_eq_some_iff.mp hr
  obtain ⟨r', hr', hproblem⟩ :=
    List.mem_map.mp ((h.listed_iff r.problem).mpr ⟨r.bestScore, hawarded, hpositive⟩)
  have hresult := h.resultOn?_eq hr'
  rw [hproblem, hr, Option.some.injEq] at hresult
  rw [hresult]
  exact hr'

theorem Reports.unique {tally' : Tally} (h : Reports records tally) (h' : Reports records tally') :
    tally = tally' := by
  have hperm : tally.results.Perm tally'.results := by
    rw [List.perm_ext_iff_of_nodup h.nodup.of_map h'.nodup.of_map]
    intro r
    rw [h.mem_iff, h'.mem_iff]
  have hresults : tally.results = tally'.results := by
    refine hperm.eq_of_pairwise (fun a b _ _ hab hba => ?_) h.descending h'.descending
    simp only [Binary64.lessThan, Bool.and_eq_true, decide_eq_true_eq] at hab hba
    rcases hab with ⟨-, hab⟩ | ⟨heq, hab⟩ <;> rcases hba with ⟨-, hba⟩ | ⟨heq', hba⟩
    · omega
    · rw [heq'] at hab
      omega
    · rw [heq] at hba
      omega
    · omega
  have hsolved : tally.solved = tally'.solved := h.solved.trans h'.solved.symm
  cases tally
  cases tally'
  exact congrArg₂ Tally.mk hresults hsolved

end

/-! ## The computed tally -/

theorem nodup_problem_filterMap (records : List Submission) :
    (((problems records).filterMap (resultOn? records)).map ProblemResult.problem).Nodup := by
  rw [List.map_filterMap]
  refine (nodup_problems records).filterMap fun id id' problem h h' => ?_
  obtain ⟨r, hr, hproblem⟩ := Option.map_eq_some_iff.mp h
  obtain ⟨r', hr', hproblem'⟩ := Option.map_eq_some_iff.mp h'
  rw [← (resultOn?_eq_some_iff.mp hr).1, ← (resultOn?_eq_some_iff.mp hr').1, hproblem, hproblem']

theorem nodup_results (records : List Submission) :
    ((ofSubmissions records).results.map ProblemResult.problem).Nodup :=
  ((ProblemResult.sort_perm _).map ProblemResult.problem).nodup_iff.mpr
    (nodup_problem_filterMap records)

theorem mem_map_problem_results :
    problem ∈ (ofSubmissions records).results.map ProblemResult.problem ↔
      ∃ score, Awarded records problem score ∧ score.isPositive = true := by
  rw [List.mem_map]
  constructor
  · rintro ⟨r, hr, rfl⟩
    obtain ⟨-, hpositive, hawarded, -⟩ := resultOn?_eq_some_iff.mp (mem_results.mp hr)
    exact ⟨r.bestScore, hawarded, hpositive⟩
  · rintro ⟨score, hawarded, hpositive⟩
    obtain ⟨r, hr, -⟩ := exists_resultOn? hawarded hpositive
    obtain ⟨rfl, -⟩ := resultOn?_eq_some_iff.mp hr
    exact ⟨r, mem_results.mpr hr, rfl⟩

theorem descending_results (records : List Submission) :
    (ofSubmissions records).results.Pairwise fun a b =>
      b.bestScore.lessThan a.bestScore = true ∨
        a.bestScore = b.bestScore ∧ a.problem < b.problem := by
  have hne : (ofSubmissions records).results.Pairwise fun a b => a.problem ≠ b.problem :=
    List.pairwise_map.mp (nodup_results records)
  have hsorted : (ofSubmissions records).results.Pairwise
      fun a b => ProblemResult.precedes a b = true := ProblemResult.pairwise_sort _
  refine (hsorted.and hne).imp_of_mem fun {a b} ha hb ⟨hab, hproblem⟩ => ?_
  have hpositive : ∀ {r}, r ∈ (ofSubmissions records).results → r.bestScore.isPositive = true :=
    fun hr => (resultOn?_eq_some_iff.mp (mem_results.mp hr)).2.1
  rcases ProblemResult.precedes_iff.mp hab with hrank | ⟨hrank, hle⟩
  · exact .inl (Binary64.lessThan_of_rank_lt (hpositive hb) (hpositive ha) hrank)
  · exact .inr ⟨Binary64.rank_injective hrank.symm, by omega⟩

theorem reports_ofSubmissions (records : List Submission) :
    Reports records (ofSubmissions records) where
  nodup := nodup_results records
  listed_iff _ := mem_map_problem_results
  bestScore r hr := by
    obtain ⟨-, hpositive, hawarded, hmax, -⟩ := resultOn?_eq_some_iff.mp (mem_results.mp hr)
    exact ⟨hawarded, (Binary64.isPositive_iff.mp hpositive).1, hmax⟩
  fullySolved r hr := by
    obtain ⟨-, -, -, -, hsolved⟩ := resultOn?_eq_some_iff.mp (mem_results.mp hr)
    rw [hsolved, isSolved_iff_mem]
  descending := descending_results records
  solved := by
    rw [← countP_isSolved]
    rfl

/-- The listed problems are those with a positive score, so the solved results are counted by the
solved problems among these. -/
theorem countP_fullySolved (records : List Submission) :
    (ofSubmissions records).results.countP ProblemResult.fullySolved =
      (solvedProblems records ∩ scoredProblems records).card := by
  have hreports := reports_ofSubmissions records
  have hnodup : (((ofSubmissions records).results.filter ProblemResult.fullySolved).map
      ProblemResult.problem).Nodup :=
    hreports.nodup.sublist (List.filter_sublist.map ProblemResult.problem)
  rw [List.countP_eq_length_filter, ← List.length_map ProblemResult.problem,
    ← List.toFinset_card_of_nodup hnodup]
  congr 1
  ext problem
  rw [List.mem_toFinset, Finset.mem_inter, mem_scoredProblems, ← hreports.listed_iff]
  constructor
  · intro hproblem
    obtain ⟨r, hr, rfl⟩ := List.mem_map.mp hproblem
    obtain ⟨hr, hsolved⟩ := List.mem_filter.mp hr
    exact ⟨(hreports.fullySolved r hr).mp hsolved, List.mem_map_of_mem hr⟩
  · rintro ⟨hsolved, hlisted⟩
    obtain ⟨r, hr, rfl⟩ := List.mem_map.mp hlisted
    exact List.mem_map_of_mem (List.mem_filter.mpr ⟨hr, (hreports.fullySolved r hr).mpr hsolved⟩)

theorem countP_fullySolved_le (records : List Submission) :
    (ofSubmissions records).results.countP ProblemResult.fullySolved ≤
      (solvedProblems records).card := by
  rw [countP_fullySolved]
  exact Finset.card_le_card Finset.inter_subset_left

/-- The tally of some submissions is the one that reports them.  While the solved problems can be
counted in 32 bits, their count is exact and no smaller than that of the solved results. -/
theorem tally_reports_submissions (records : List Submission) :
    (∀ tally, tally = ofSubmissions records ↔ Reports records tally) ∧
    ((solvedProblems records).card < UInt32.size →
      (ofSubmissions records).solved.toNat = (solvedProblems records).card ∧
      (ofSubmissions records).results.countP ProblemResult.fullySolved ≤
        (ofSubmissions records).solved.toNat) := by
  have hreports := reports_ofSubmissions records
  refine ⟨fun tally => ⟨fun h => h ▸ hreports, fun h => h.unique hreports⟩, fun hfew => ?_⟩
  have hsolved : (ofSubmissions records).solved.toNat = (solvedProblems records).card := by
    rw [hreports.solved, UInt32.toNat_ofNat_of_lt' hfew]
  refine ⟨hsolved, ?_⟩
  rw [hsolved]
  exact countP_fullySolved_le records

/-- The first problem has its best score and its full solve from different submissions; the second
is solved and not listed. -/
theorem tally_reports_submissions_unscored :
    let records : List Submission :=
      [⟨1, some .nan, false, .zero, .one⟩, ⟨1, none, true, .one, .one⟩,
        ⟨2, some .negativeZero, true, .one, .zero⟩, ⟨1, some .one, false, .zero, .one⟩]
    (solvedProblems records).card < UInt32.size ∧
    (∀ tally, tally = ofSubmissions records ↔ Reports records tally) ∧
    (ofSubmissions records).solved.toNat = 2 ∧
    (ofSubmissions records).results.countP ProblemResult.fullySolved ≤ 2 := by
  intro records
  have hcard : (solvedProblems records).card = 2 := by decide +kernel
  have hfew : (solvedProblems records).card < UInt32.size := by
    rw [hcard]
    decide
  obtain ⟨hiff, hcount⟩ := tally_reports_submissions records
  obtain ⟨hsolved, hle⟩ := hcount hfew
  rw [hsolved, hcard] at hle
  exact ⟨hfew, hiff, hsolved.trans hcard, hle⟩

end Tally
end Contestant
