import Contestant.Proofs.Scoring.Faults
import Contestant.Settings.Settings
import Mathlib.Data.List.Perm.Subperm

/-!
More submissions never cost points.

A further submission can open a problem, raise a best score past others, turn a problem solved, or
do nothing.  In each case every problem keeps a result that is at least as good, so from every score
upwards there are at least as many results as before, and that is all that the sums ask for.
-/

namespace Contestant
namespace Tally

open Scoring (countFrom)

section

variable {records more : List Submission}

theorem Awarded.mono (hsub : records ⊆ more) {problem : Int} {score : Binary64}
    (h : Awarded records problem score) : Awarded more problem score := by
  obtain ⟨s, hs, hproblem, hscore⟩ := h
  exact ⟨s, hsub hs, hproblem, hscore⟩

theorem problems_subperm (hsub : records ⊆ more) :
    (problems records).Subperm (problems more) := by
  refine List.subperm_of_subset (nodup_problems records) fun problem hproblem => ?_
  obtain ⟨s, hs, rfl⟩ := mem_problems.mp hproblem
  exact mem_problems.mpr ⟨s, hsub hs, rfl⟩

/-! ## Results -/

/-- Whether a problem has a result from a score upwards. -/
def reaches (records : List Submission) (bound : Binary64) (problem : Int) : Bool :=
  (resultOn? records problem).any fun r => bound.atMost r.bestScore

theorem countFrom_results (records : List Submission) (bound : Binary64) :
    countFrom bound ((ofSubmissions records).results.map ProblemResult.bestScore) =
      (problems records).countP (reaches records bound) := by
  simp only [countFrom, ofSubmissions, List.countP_map, (ProblemResult.sort_perm _).countP_eq,
    List.countP_filterMap]
  refine List.countP_congr fun problem _ => ?_
  cases h : resultOn? records problem <;> simp [reaches, h]

theorem reaches_mono (hsub : records ⊆ more) {bound : Binary64} {problem : Int}
    (h : reaches records bound problem = true) : reaches more bound problem = true := by
  obtain ⟨r, hr, hbound⟩ := (Option.any_eq_true _ _).mp h
  obtain ⟨-, hpositive, hawarded, -⟩ := resultOn?_eq_some_iff.mp hr
  obtain ⟨r', hr', hle⟩ := exists_resultOn? (hawarded.mono hsub) hpositive
  rw [reaches, hr', Option.any_some]
  exact Binary64.le_trans hbound hle

theorem countFrom_results_le (hsub : records ⊆ more) (bound : Binary64) :
    countFrom bound ((ofSubmissions records).results.map ProblemResult.bestScore) ≤
      countFrom bound ((ofSubmissions more).results.map ProblemResult.bestScore) := by
  rw [countFrom_results, countFrom_results]
  calc (problems records).countP (reaches records bound)
      ≤ (problems more).countP (reaches records bound) := (problems_subperm hsub).countP_le _
    _ ≤ (problems more).countP (reaches more bound) :=
        List.countP_mono_left fun _ _ => reaches_mono hsub

theorem isScore_of_mem_results
    (hscores : ∀ r ∈ (ofSubmissions records).results, Scoring.isScore r.bestScore = true)
    (hmore : ∀ s ∈ more, s ∈ records ∨ s.score ≠ some (.infinity false)) :
    ∀ r ∈ (ofSubmissions more).results, Scoring.isScore r.bestScore = true := by
  have hrecords := scoreFault?_results_eq_none_iff.mp (Scoring.scoreFault?_eq_none_iff.mpr hscores)
  exact isScore_of_no_infinity fun s hs => (hmore s hs).elim (hrecords s) id

/-! ## Solved problems -/

theorem solved_le (hsub : records ⊆ more) (hfew : (problems more).length < UInt32.size) :
    (ofSubmissions records).solved ≤ (ofSubmissions more).solved := by
  have hcount : (problems records).countP (fun id => isSolved (submissionsOn id records)) ≤
      (problems more).countP fun id => isSolved (submissionsOn id more) := by
    refine Nat.le_trans ((problems_subperm hsub).countP_le _)
      (List.countP_mono_left fun problem _ h => ?_)
    obtain ⟨s, hs, hproblem, hfull⟩ := isSolved_iff.mp h
    exact isSolved_iff.mpr ⟨s, hsub hs, hproblem, hfull⟩
  have hlt : (problems more).countP (fun id => isSolved (submissionsOn id more)) < UInt32.size :=
    Nat.lt_of_le_of_lt List.countP_le_length hfew
  rw [UInt32.le_iff_toNat_le]
  simp only [ofSubmissions]
  rw [UInt32.toNat_ofNat_of_lt' hlt, UInt32.toNat_ofNat_of_lt' (Nat.lt_of_le_of_lt hcount hlt)]
  exact hcount

end

end Tally

section

variable {scorer : Scorer} {records more : List Submission}

theorem Scorer.computeTally_of_subset (hsub : records ⊆ more)
    (hmore : ∀ s ∈ more, s ∈ records ∨ s.score ≠ some (.infinity false))
    (hfew : (Tally.problems more).length < UInt32.size) {s : Snapshot}
    (hs : scorer.computeTally (.ofSubmissions records) = .ok s) :
    ∃ s', scorer.computeTally (.ofSubmissions more) = .ok s' ∧
      s.totalPoints ≤ s'.totalPoints ∧ s.solved ≤ s'.solved ∧
      ((scorer.bonus.points s.solved).isFinite = true →
        (scorer.bonus.points s'.solved).isFinite = true →
        scorer.bonus.points s.solved ≤ scorer.bonus.points s'.solved →
        s.performancePoints ≤ s'.performancePoints) := by
  have hscores := (computeTally_eq_ok_iff.mp hs).1
  obtain ⟨s₀, s', hs₀, hs', hsolved, hsolved', htotal, hpoints⟩ := Scoring.snapshot_le scorer.table
    scorer.bonus.points hscores (Tally.isScore_of_mem_results hscores hmore)
    (Tally.countFrom_results_le hsub) (Tally.ofSubmissions records).solved
    (Tally.ofSubmissions more).solved
  obtain rfl : s = s₀ := Except.ok.inj (hs.symm.trans hs₀)
  refine ⟨s', hs', htotal, ?_, ?_⟩
  · rw [hsolved, hsolved']
    exact Tally.solved_le hsub hfew
  · rw [hsolved, hsolved']
    exact hpoints

/-- A further submission, wherever it comes among the others, costs no points: if the others can be
scored, then so can all of them, and neither the total nor the number of solved problems is smaller,
and neither are the performance points if the bonus is finite at both numbers of solved problems and
does not shrink.  The score of the submission may be missing or be any double but the infinite
one. -/
theorem more_submissions_never_cost {before after : List Submission} {extra : Submission}
    (hextra : extra.score ≠ some (.infinity false))
    (hfew : (Tally.problems (before ++ extra :: after)).length < UInt32.size) {s : Snapshot}
    (hs : scorer.computeTally (.ofSubmissions (before ++ after)) = .ok s) :
    ∃ s', scorer.computeTally (.ofSubmissions (before ++ extra :: after)) = .ok s' ∧
      s.totalPoints ≤ s'.totalPoints ∧ s.solved ≤ s'.solved ∧
      ((scorer.bonus.points s.solved).isFinite = true →
        (scorer.bonus.points s'.solved).isFinite = true →
        scorer.bonus.points s.solved ≤ scorer.bonus.points s'.solved →
        s.performancePoints ≤ s'.performancePoints) := by
  have hmem : ∀ r, r ∈ before ++ extra :: after ↔ r = extra ∨ r ∈ before ++ after := by
    intro r
    simp only [List.mem_append, List.mem_cons]
    tauto
  refine Scorer.computeTally_of_subset (fun r hr => (hmem r).mpr (.inr hr)) (fun r hr => ?_) hfew hs
  rcases (hmem r).mp hr with rfl | hr
  · exact .inr hextra
  · exact .inl hr

end

/-- A second problem is solved under the standard bonus, which is finite at both counts and
grows. -/
theorem more_submissions_never_cost_second_problem :
    let settings := Settings.standard "" ""
    let bonus : Bonus := .saturating settings.bonusMax settings.bonusBase
    let scorer : Scorer := ⟨⟨[.one], by decide +kernel⟩, bonus⟩
    let first : Submission := ⟨1, some .one, true, .one, .one⟩
    let second : Submission := ⟨2, some .one, true, .one, .one⟩
    let s : Snapshot := ⟨.one, 1, .one + bonus.points 1⟩
    second.score ≠ some (.infinity false) ∧
    (Tally.problems ([] ++ second :: [first])).length < UInt32.size ∧
    scorer.computeTally (.ofSubmissions ([] ++ [first])) = .ok s ∧
    (bonus.points 1).isFinite = true ∧ (bonus.points 2).isFinite = true ∧
    bonus.points 1 ≤ bonus.points 2 ∧
    ∃ s', scorer.computeTally (.ofSubmissions ([] ++ second :: [first])) = .ok s' ∧
      s.totalPoints ≤ s'.totalPoints ∧ s.solved ≤ s'.solved ∧
      s.performancePoints ≤ s'.performancePoints := by
  intro settings bonus scorer first second s
  have hextra : second.score ≠ some (.infinity false) := by decide
  have hfew : (Tally.problems ([] ++ second :: [first])).length < UInt32.size := by
    rw [Tally.problems, List.length_mergeSort]
    decide
  have hs : scorer.computeTally (.ofSubmissions ([] ++ [first])) = .ok s :=
    Scorer.computeTally_eq_ok_iff.mpr ⟨by decide +kernel, by decide +kernel⟩
  have hone : (bonus.points 1).isFinite = true := by decide +kernel
  have htwo : (bonus.points 2).isFinite = true := by decide +kernel
  have hgrows : bonus.points 1 ≤ bonus.points 2 := Binary64.le_iff.mpr (by decide +kernel)
  obtain ⟨s', hs', htotal, hsolved, hpoints⟩ := more_submissions_never_cost hextra hfew hs
  have hcount : s'.solved = 2 := by
    rw [(Scorer.computeTally_eq_ok_iff.mp hs').2]
    simp only [Tally.ofSubmissions, Tally.problems, (List.mergeSort_perm _ _).countP_eq]
    decide
  rw [hcount] at hpoints
  exact ⟨hextra, hfew, hs, hone, htwo, hgrows, s', hs', htotal, hsolved, hpoints hone htwo hgrows⟩

end Contestant
