import Contestant.Proofs.Scoring.Reordering

/-!
Only the best results carry weight.

A decay table of `n` factors meets the `n` highest scores and no others.  What is weighted is
therefore settled by which those scores are: the results below them and the problems behind equal
scores do not show in the performance points, but for the number of them that is solved.
-/

namespace Contestant

namespace Binary64

/-- Whether a number comes before another when they descend in the total order. -/
def notBelow (x y : Binary64) : Bool := (y.totalCompare x).isLE

/-- Numbers in descending total order. -/
def descending (xs : List Binary64) : List Binary64 := xs.mergeSort notBelow

theorem notBelow_iff {x y : Binary64} : notBelow x y = true ↔ y.rank ≤ x.rank := by
  rw [notBelow, totalCompare, Int.isLE_compare]

theorem descending_perm (xs : List Binary64) : (descending xs).Perm xs := List.mergeSort_perm _ _

theorem pairwise_descending (xs : List Binary64) :
    (descending xs).Pairwise fun x y => y.rank ≤ x.rank := by
  have htrans : ∀ x y z, notBelow x y = true → notBelow y z = true → notBelow x z = true := by
    intro x y z hxy hyz
    rw [notBelow_iff] at hxy hyz ⊢
    exact Int.le_trans hyz hxy
  have htotal : ∀ x y, (notBelow x y || notBelow y x) = true := by
    intro x y
    rw [Bool.or_eq_true, notBelow_iff, notBelow_iff]
    exact Int.le_total _ _
  exact (List.pairwise_mergeSort htrans htotal xs).imp notBelow_iff.mp

theorem descending_eq {xs ys : List Binary64} (h : xs.Perm ys)
    (hxs : xs.Pairwise fun x y => y.rank ≤ x.rank) : descending ys = xs :=
  eq_of_perm_of_pairwise ((descending_perm ys).trans h.symm) (pairwise_descending ys) hxs

end Binary64

namespace Scoring

open Binary64 (descending)

/-- The scores of some results, highest first. -/
def ranked (results : List ProblemResult) : List Binary64 :=
  descending (results.map ProblemResult.bestScore)

theorem length_ranked (results : List ProblemResult) : (ranked results).length = results.length := by
  rw [ranked, (Binary64.descending_perm _).length_eq, List.length_map]

/-- Ties between problems do not show in the scores. -/
theorem scores_eq_ranked (results : List ProblemResult) :
    ProblemResult.scores results = ranked results :=
  (Binary64.descending_eq (ProblemResult.scores_perm results)
    (ProblemResult.pairwise_rank_scores results)).symm

/-- Each of the highest scores times the factor in its place. -/
def byPlace (table : DecayTable) (results : List ProblemResult) : List Binary64 :=
  List.ofFn fun i : Fin (min table.size results.length) =>
    have hi := Nat.lt_min.mp i.isLt
    table.factors.get ⟨i, hi.1⟩ * (ranked results).get ⟨i, (length_ranked results).symm ▸ hi.2⟩

theorem total_eq_sum_ranked (results : List ProblemResult) :
    total results = .sum (ranked results) := by
  show Binary64.sum (ProblemResult.scores results) = _
  rw [scores_eq_ranked]

theorem weighted_eq_sum_byPlace (table : DecayTable) (results : List ProblemResult) :
    weighted table.factors results = .sum (byPlace table results) := by
  rw [weighted_eq, scores_eq_ranked]
  congr 1
  refine List.ext_getElem ?_ fun i hi hi' => ?_
  · rw [byPlace, List.length_zipWith, List.length_ofFn, length_ranked, DecayTable.size]
  · simp only [byPlace, List.getElem_zipWith, List.getElem_ofFn, List.get_eq_getElem]

theorem zipWith_take_length {α β γ : Type} (f : α → β → γ) (xs : List α) (ys : List β) :
    List.zipWith f xs ys = List.zipWith f xs (ys.take xs.length) := by
  induction xs generalizing ys with
  | nil => rfl
  | cons x xs ih =>
    cases ys with
    | nil => rfl
    | cons y ys =>
      rw [List.zipWith_cons_cons, List.length_cons, List.take_succ_cons, List.zipWith_cons_cons,
        ← ih ys]

variable {results results' : List ProblemResult}

theorem weighted_eq_of_take_perm {factors : List Binary64}
    (h : ((ranked results).take factors.length).Perm ((ranked results').take factors.length)) :
    weighted factors results = weighted factors results' := by
  have hsorted := fun results : List ProblemResult =>
    Binary64.pairwise_descending (results.map ProblemResult.bestScore)
  have heq : (ranked results).take factors.length = (ranked results').take factors.length :=
    Binary64.eq_of_perm_of_pairwise h ((hsorted results).sublist (List.take_sublist _ _))
      ((hsorted results').sublist (List.take_sublist _ _))
  rw [weighted_eq, weighted_eq, scores_eq_ranked, scores_eq_ranked, zipWith_take_length, heq,
    ← zipWith_take_length]

/-- With a table of `n` factors, results whose `n` highest scores are the same and of which as many
are solved have the same performance points, bit for bit: the sum of the highest scores times the
factors in their places, and the bonus.  The total sums all scores. -/
theorem only_best_results_weigh (scorer : Scorer)
    (hscores : ∀ r ∈ results, isScore r.bestScore = true)
    (hscores' : ∀ r ∈ results', isScore r.bestScore = true)
    (hbest : ((ranked results).take scorer.table.size).Perm
      ((ranked results').take scorer.table.size))
    (hsolved : results.countP ProblemResult.fullySolved =
      results'.countP ProblemResult.fullySolved) :
    let solved : SolvedCount := .ofNat (results.countP ProblemResult.fullySolved)
    ∃ points,
      scorer.compute results = .ok ⟨.sum (ranked results), solved, points⟩ ∧
      scorer.compute results' = .ok ⟨.sum (ranked results'), solved, points⟩ ∧
      points = .sum (byPlace scorer.table results) + scorer.bonus.points solved := by
  intro solved
  refine ⟨_, ?_, ?_, rfl⟩
  · rw [scorer.compute_of_scores hscores, total_eq_sum_ranked, weighted_eq_sum_byPlace, solvedAmong]
  · rw [scorer.compute_of_scores hscores', total_eq_sum_ranked, solvedAmong, ← hsolved,
      ← weighted_eq_of_take_perm hbest, weighted_eq_sum_byPlace]

/-- Two results beyond the table, one of which ties with the last that counts. -/
theorem only_best_results_weigh_tie :
    let half : Binary64 := .ofBody false (1022 * Nat.pow 2 52)
    let scorer : Scorer := ⟨⟨[.one, half], by decide +kernel⟩, .threshold 1 .one⟩
    let results : List ProblemResult := [⟨1, half, true⟩, ⟨2, .one, false⟩]
    let results' : List ProblemResult :=
      [⟨6, .negativeZero, false⟩, ⟨5, half, false⟩, ⟨4, half, true⟩, ⟨3, .one, false⟩]
    let solved : SolvedCount := .ofNat (results.countP ProblemResult.fullySolved)
    (∀ r ∈ results, isScore r.bestScore = true) ∧ (∀ r ∈ results', isScore r.bestScore = true) ∧
    ((ranked results).take scorer.table.size).Perm ((ranked results').take scorer.table.size) ∧
    results.countP ProblemResult.fullySolved = results'.countP ProblemResult.fullySolved ∧
    ∃ points,
      scorer.compute results = .ok ⟨.sum (ranked results), solved, points⟩ ∧
      scorer.compute results' = .ok ⟨.sum (ranked results'), solved, points⟩ ∧
      points = .sum (byPlace scorer.table results) + scorer.bonus.points solved := by
  intro half scorer results results' solved
  have hscores : ∀ r ∈ results, isScore r.bestScore = true := by decide
  have hscores' : ∀ r ∈ results', isScore r.bestScore = true := by decide
  have hranked : ranked results = [.one, half] := Binary64.descending_eq (by decide) (by decide)
  have hranked' : ranked results' = [.one, half, half, .negativeZero] :=
    Binary64.descending_eq (by decide) (by decide)
  have hbest : ((ranked results).take scorer.table.size).Perm
      ((ranked results').take scorer.table.size) := by
    rw [hranked, hranked']
    exact List.Perm.refl [.one, half]
  have hsolved : results.countP ProblemResult.fullySolved =
      results'.countP ProblemResult.fullySolved := by decide
  exact ⟨hscores, hscores', hbest, hsolved,
    only_best_results_weigh scorer hscores hscores' hbest hsolved⟩

end Scoring
end Contestant
