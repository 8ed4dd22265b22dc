import Contestant.Proofs.Scoring.Scorer
import Mathlib.Logic.Relation

/-!
Improving results never lowers a score.

Another result, a greater score and one more problem that is solved all leave at least as many
results from every score upwards and at least as many solved problems.  That is what the sums and
the bonus ask for, and it lasts through any number of improvements.
-/

namespace Contestant
namespace Scoring

/-- One result is added anywhere, one score is replaced by a greater finite one, or one problem
turns from unsolved to solved. -/
inductive Improvement : List ProblemResult → List ProblemResult → Prop
  | add (before after : List ProblemResult) {extra : ProblemResult}
      (score : isScore extra.bestScore = true) :
      Improvement (before ++ after) (before ++ extra :: after)
  | raise (before after : List ProblemResult) {r : ProblemResult} {score : Binary64}
      (finite : score.isFinite = true) (greater : r.bestScore.lessThan score = true) :
      Improvement (before ++ r :: after) (before ++ { r with bestScore := score } :: after)
  | solve (before after : List ProblemResult) {r : ProblemResult}
      (unsolved : r.fullySolved = false) :
      Improvement (before ++ r :: after) (before ++ { r with fullySolved := true } :: after)

/-- The second results are at least as good as the first, as far as the sums and the bonus see
them. -/
structure AtLeast (results better : List ProblemResult) : Prop where
  scores : (∀ r ∈ results, isScore r.bestScore = true) →
    ∀ r ∈ better, isScore r.bestScore = true
  countFrom_le : ∀ bound, countFrom bound (results.map ProblemResult.bestScore) ≤
    countFrom bound (better.map ProblemResult.bestScore)
  solved_le : results.countP ProblemResult.fullySolved ≤ better.countP ProblemResult.fullySolved

section

variable {results better best : List ProblemResult}

theorem AtLeast.refl (results : List ProblemResult) : AtLeast results results :=
  ⟨id, fun _ => Nat.le_refl _, Nat.le_refl _⟩

theorem AtLeast.trans (h : AtLeast results better) (h' : AtLeast better best) :
    AtLeast results best where
  scores hscores := h'.scores (h.scores hscores)
  countFrom_le bound := Nat.le_trans (h.countFrom_le bound) (h'.countFrom_le bound)
  solved_le := Nat.le_trans h.solved_le h'.solved_le

/-- A count does not shrink if what stands in for an element counts whenever the element does. -/
theorem countP_replace_le {p : ProblemResult → Bool} (before after : List ProblemResult)
    {r r' : ProblemResult} (h : p r = true → p r' = true) :
    (before ++ r :: after).countP p ≤ (before ++ r' :: after).countP p := by
  rw [List.countP_append, List.countP_append]
  refine Nat.add_le_add_left ?_ _
  by_cases hr : p r = true
  · rw [List.countP_cons_of_pos hr, List.countP_cons_of_pos (h hr)]
  · rw [List.countP_cons_of_neg hr]
    exact (List.sublist_cons_self r' after).countP_le

/-- One result among others is replaced by one that is at least as good. -/
theorem atLeast_replace (before after : List ProblemResult) {r r' : ProblemResult}
    (hscore : isScore r.bestScore = true → isScore r'.bestScore = true)
    (hle : ∀ bound : Binary64, bound ≤ r.bestScore → bound ≤ r'.bestScore)
    (hsolved : r.fullySolved = true → r'.fullySolved = true) :
    AtLeast (before ++ r :: after) (before ++ r' :: after) where
  scores h := by
    simp only [List.forall_mem_append, List.forall_mem_cons] at h ⊢
    exact ⟨h.1, hscore h.2.1, h.2.2⟩
  countFrom_le bound := by
    rw [countFrom, countFrom, List.countP_map, List.countP_map]
    exact countP_replace_le before after (hle bound)
  solved_le := countP_replace_le before after hsolved

theorem Improvement.atLeast (h : Improvement results better) : AtLeast results better := by
  cases h with
  | add before after score =>
    rename_i extra
    have hsub : (before ++ after).Sublist (before ++ extra :: after) :=
      (List.sublist_cons_self extra after).append_left before
    refine ⟨fun h => ?_, fun bound => (hsub.map ProblemResult.bestScore).countP_le, hsub.countP_le⟩
    simp only [List.forall_mem_append, List.forall_mem_cons] at h ⊢
    exact ⟨h.1, score, h.2⟩
  | raise before after finite greater =>
    have hle := Binary64.le_of_lessThan greater
    refine atLeast_replace before after (fun hscore => ?_) (fun _ h => Binary64.le_trans h hle) id
    exact isScore_iff.mpr ⟨finite, Binary64.le_trans (isScore_iff.mp hscore).2 hle⟩
  | solve before after unsolved =>
    exact atLeast_replace before after id (fun _ => id) fun _ => rfl

theorem atLeast_of_improvements (h : Relation.ReflTransGen Improvement results better) :
    AtLeast results better := by
  induction h with
  | refl => exact .refl results
  | tail _ step ih => exact ih.trans step.atLeast

theorem AtLeast.solvedAmong_le (h : AtLeast results better)
    (hfew : better.length < UInt32.size) : solvedAmong results ≤ solvedAmong better := by
  have hlt : better.countP ProblemResult.fullySolved < UInt32.size :=
    Nat.lt_of_le_of_lt List.countP_le_length hfew
  rw [UInt32.le_iff_toNat_le, solvedAmong, solvedAmong, UInt32.toNat_ofNat_of_lt' hlt,
    UInt32.toNat_ofNat_of_lt' (Nat.lt_of_le_of_lt h.solved_le hlt)]
  exact h.solved_le

end

/-- Results that can be scored can be scored after any improvements, and neither the total nor the
number of solved problems is smaller then, and neither are the performance points if the bonus is
finite at both numbers of solved problems and does not shrink. -/
theorem improvements_never_cost (table : DecayTable) (bonus : SolvedCount → Binary64)
    {results better : List ProblemResult} (hscores : ∀ r ∈ results, isScore r.bestScore = true)
    (h : Relation.ReflTransGen Improvement results better) (hfew : better.length < UInt32.size) :
    ∃ s s', compute table.factors bonus results = .ok s ∧
      compute table.factors bonus better = .ok s' ∧
      s.totalPoints ≤ s'.totalPoints ∧ s.solved ≤ s'.solved ∧
      ((bonus s.solved).isFinite = true → (bonus s'.solved).isFinite = true →
        bonus s.solved ≤ bonus s'.solved → s.performancePoints ≤ s'.performancePoints) := by
  have hbetter := atLeast_of_improvements h
  obtain ⟨s, s', hs, hs', hsolved, hsolved', htotal, hpoints⟩ := snapshot_le table bonus hscores
    (hbetter.scores hscores) hbetter.countFrom_le (solvedAmong results) (solvedAmong better)
  refine ⟨s, s', hs, hs', htotal, ?_, ?_⟩
  · rw [hsolved, hsolved']
    exact hbetter.solvedAmong_le hfew
  · rw [hsolved, hsolved']
    exact hpoints

/-- A second result comes in, its score is raised past the first, and then it is solved, which
brings the bonus. -/
theorem improvements_never_cost_three :
    let half : Binary64 := .ofBody false (1022 * Nat.pow 2 52)
    let table : DecayTable := ⟨[half, .one], by decide +kernel⟩
    let bonus : SolvedCount → Binary64 := Bonus.points (.threshold 1 .one)
    let results : List ProblemResult := [⟨1, half, false⟩]
    let better : List ProblemResult := [⟨1, half, false⟩, ⟨2, .one, true⟩]
    (∀ r ∈ results, isScore r.bestScore = true) ∧
    Relation.ReflTransGen Improvement results better ∧ better.length < UInt32.size ∧
    ∃ s s', compute table.factors bonus results = .ok s ∧
      compute table.factors bonus better = .ok s' ∧
      s.totalPoints ≤ s'.totalPoints ∧ s.solved ≤ s'.solved ∧
      s.performancePoints ≤ s'.performancePoints := by
  intro half table bonus results better
  have hscores : ∀ r ∈ results, isScore r.bestScore = true := by decide
  have hadd : Improvement results [⟨1, half, false⟩, ⟨2, .zero, false⟩] :=
    .add results [] (by decide)
  have hraise : Improvement [⟨1, half, false⟩, ⟨2, .zero, false⟩]
      [⟨1, half, false⟩, ⟨2, .one, false⟩] := .raise results [] (by decide) (by decide)
  have hsolve : Improvement [⟨1, half, false⟩, ⟨2, .one, false⟩] better := .solve results [] rfl
  have h : Relation.ReflTransGen Improvement results better :=
    ((Relation.ReflTransGen.single hadd).tail hraise).tail hsolve
  have hfew : better.length < UInt32.size := by decide
  obtain ⟨s, s', hs, hs', htotal, hsolved, hpoints⟩ :=
    improvements_never_cost table bonus hscores h hfew
  have hfinite : ∀ n, (bonus n).isFinite = true := isFinite_threshold (by decide)
  have hgrows : bonus s.solved ≤ bonus s'.solved :=
    threshold_mono (Binary64.zero_le_iff.mpr (by decide)) hsolved
  exact ⟨hscores, h, hfew, s, s', hs, hs', htotal, hsolved,
    hpoints (hfinite _) (hfinite _) hgrows⟩

end Scoring
end Contestant
