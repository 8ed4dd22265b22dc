import Contestant.Proofs.Scoring.Faults

/-!
Solved problems without a positive score.

A tally counts them and lists no result for them, so its own count of solved problems may be larger
than the one that can be counted among its results.  Scoring a tally and scoring its results differ
by these problems alone: the same fault stops both, both sum the same scores, and each adds the
bonus for its own count.
-/

namespace Contestant
namespace Tally

/-- The problems that are fully solved and have no positive score. -/
def unscoredSolves (records : List Submission) : Finset Int :=
  solvedProblems records \ scoredProblems records

variable {records : List Submission}

theorem countP_fullySolved_add_card (records : List Submission) :
    (ofSubmissions records).results.countP ProblemResult.fullySolved +
      (unscoredSolves records).card = (solvedProblems records).card := by
  rw [countP_fullySolved, unscoredSolves, Nat.add_comm]
  exact Finset.card_sdiff_add_card_inter _ _

theorem unscoredSolves_eq_empty (h : ∀ problem ∈ solvedProblems records,
    ∃ score, Awarded records problem score ∧ score.isPositive = true) :
    unscoredSolves records = ∅ := by
  rw [unscoredSolves, Finset.sdiff_eq_empty_iff_subset]
  intro problem hproblem
  exact mem_scoredProblems.mpr (h problem hproblem)

/-- Counts are kept in 32 bits, and so is their difference. -/
theorem solvedAmong_results (records : List Submission) :
    Scoring.solvedAmong (ofSubmissions records).results =
      (ofSubmissions records).solved - .ofNat (unscoredSolves records).card := by
  rw [(reports_ofSubmissions records).solved, ← countP_fullySolved_add_card, UInt32.ofNat_add,
    UInt32.add_sub_cancel, Scoring.solvedAmong]

theorem toNat_solvedAmong_results (hfew : (solvedProblems records).card < UInt32.size) :
    (Scoring.solvedAmong (ofSubmissions records).results).toNat + (unscoredSolves records).card =
      (ofSubmissions records).solved.toNat := by
  have hcount := countP_fullySolved_add_card records
  rw [(reports_ofSubmissions records).solved, Scoring.solvedAmong,
    UInt32.toNat_ofNat_of_lt' hfew, UInt32.toNat_ofNat_of_lt' (by omega)]
  exact hcount

end Tally

/-- A tally and the results that it lists are refused for the same fault, or score alike but for the
solved problems without a positive score: the tally counts these for the bonus and its results do
not.  Without such problems the snapshots are the same. -/
theorem tally_and_results_score_alike (scorer : Scorer) (records : List Submission) :
    let tally := Tally.ofSubmissions records
    let weighted := Scoring.weighted scorer.table.factors tally.results
    (∃ fault, scorer.computeTally tally = .error fault ∧
        scorer.compute tally.results = .error fault) ∨
      ∃ s s', scorer.computeTally tally = .ok s ∧ scorer.compute tally.results = .ok s' ∧
        s.totalPoints = s'.totalPoints ∧
        s.solved = tally.solved ∧
        s'.solved = tally.solved - .ofNat (Tally.unscoredSolves records).card ∧
        ((Tally.solvedProblems records).card < UInt32.size →
          s'.solved.toNat + (Tally.unscoredSolves records).card = tally.solved.toNat) ∧
        s.performancePoints = weighted + scorer.bonus.points s.solved ∧
        s'.performancePoints = weighted + scorer.bonus.points s'.solved ∧
        ((∀ problem ∈ Tally.solvedProblems records,
            ∃ score, Tally.Awarded records problem score ∧ score.isPositive = true) → s = s') := by
  intro tally weighted
  cases hfault : Scoring.fault? scorer.table.factors tally.results with
  | some fault =>
    exact .inl ⟨fault, Scoring.snapshot_eq_error_iff.mpr hfault,
      Scoring.snapshot_eq_error_iff.mpr hfault⟩
  | none =>
    refine .inr ⟨_, _, Scoring.snapshot_eq_ok_iff.mpr ⟨hfault, rfl⟩,
      Scoring.snapshot_eq_ok_iff.mpr ⟨hfault, rfl⟩, rfl, rfl, Tally.solvedAmong_results records,
      Tally.toNat_solvedAmong_results, rfl, rfl, fun hscored => ?_⟩
    have hsolved : Scoring.solvedAmong tally.results = tally.solved := by
      rw [Tally.solvedAmong_results, Tally.unscoredSolves_eq_empty hscored, Finset.card_empty]
      exact UInt32.sub_zero _
    rw [hsolved]

/-- A problem that is solved for no points brings the bonus for two solved problems to the tally
and not to its results; without it both come to one snapshot. -/
theorem tally_and_results_score_alike_unscored :
    let scorer : Scorer := ⟨⟨[.one], by decide⟩, .threshold 2 .one⟩
    let scored : Submission := ⟨1, some .one, true, .one, .one⟩
    let records : List Submission := [⟨2, some .zero, true, .one, .one⟩, scored]
    (Tally.solvedProblems records).card < UInt32.size ∧
    (∃ s s', scorer.computeTally (.ofSubmissions records) = .ok s ∧
      scorer.compute (Tally.ofSubmissions records).results = .ok s' ∧
      s.totalPoints = s'.totalPoints ∧ s.solved.toNat = 2 ∧ s'.solved.toNat = 1) ∧
    (∀ problem ∈ Tally.solvedProblems [scored],
      ∃ score, Tally.Awarded [scored] problem score ∧ score.isPositive = true) ∧
    ∃ s, scorer.computeTally (.ofSubmissions [scored]) = .ok s ∧
      scorer.compute (Tally.ofSubmissions [scored]).results = .ok s := by
  intro scorer scored records
  have hsolved : (Tally.solvedProblems records).card = 2 := by decide +kernel
  have hunscored : (Tally.unscoredSolves records).card = 1 := by decide +kernel
  have hfew : (Tally.solvedProblems records).card < UInt32.size := by
    rw [hsolved]
    decide
  have hscored : ∀ problem ∈ Tally.solvedProblems [scored],
      ∃ score, Tally.Awarded [scored] problem score ∧ score.isPositive = true := by
    intro problem hproblem
    obtain ⟨s, hs, rfl, -⟩ := Tally.mem_solvedProblems.mp hproblem
    exact ⟨.one, ⟨s, hs, rfl, by rw [List.mem_singleton.mp hs]⟩, by decide⟩
  refine ⟨hfew, ?_, hscored, ?_⟩
  · rcases tally_and_results_score_alike scorer records with ⟨fault, herror, -⟩ | hok
    · exact absurd herror (Scorer.computeTally_ne_error (by decide) fault)
    · obtain ⟨s, s', hs, hs', htotal, hcount, -, hless, -⟩ := hok
      have htally : s.solved.toNat = 2 := by
        rw [hcount, (Tally.reports_ofSubmissions records).solved, hsolved]
        rfl
      have hresults := hless hfew
      rw [hunscored, ← hcount, htally] at hresults
      exact ⟨s, s', hs, hs', htotal, htally, Nat.succ.inj hresults⟩
  · rcases tally_and_results_score_alike scorer [scored] with ⟨fault, herror, -⟩ | hok
    · exact absurd herror (Scorer.computeTally_ne_error (by decide) fault)
    · obtain ⟨s, s', hs, hs', -, -, -, -, -, -, heq⟩ := hok
      exact ⟨s, hs, heq hscored ▸ hs'⟩

end Contestant
