import Contestant.Proofs.Scoring.Reported
import Contestant.Proofs.Scoring.Scorer
import Mathlib.Order.Bounds.Basic

/-!
Which inputs scoring refuses, and what it blames.

`Scoring.Outcome` gives the condition of each fault in terms of the numbers themselves: an empty
table comes first, then the first entry that is no factor, then the first result whose score cannot
be summed.  The results of a tally have positive scores, so the only score among them that cannot be
summed is the infinity.  It is the largest of all, and a tie on it goes to the smaller problem id.
-/

namespace Contestant

/-- A score that cannot be summed: below zero, infinite or not a number. -/
def Binary64.Unsummable (x : Binary64) : Prop :=
  x.isNegative = true ∨ x.isInfinite = true ∨ x.isNaN = true

theorem Scoring.isScore_eq_false_iff {x : Binary64} : isScore x = false ↔ x.Unsummable := by
  have hfinite : x.isFinite = false ↔ x.isInfinite = true ∨ x.isNaN = true := by
    simp only [Binary64.isFinite, Binary64.isInfinite, Binary64.isNaN, decide_eq_true_eq,
      decide_eq_false_iff_not]
    omega
  rw [isScore, Bool.and_eq_false_iff, hfinite, Bool.not_eq_false', Binary64.Unsummable, or_comm]

/-! ## Tables -/

namespace DecayTable

/-- A factor list that makes a table. -/
structure Sound (factors : List Binary64) : Prop where
  ne_nil : factors ≠ []
  factor : ∀ factor ∈ factors, factor.isFinite = true ∧ factor.isPositive = true

/-- The places in a factor list of the numbers that are not finite or not above zero. -/
def faultyPlaces (factors : List Binary64) : Set Nat :=
  {i | ∃ x, factors[i]? = some x ∧ (x.isFinite = false ∨ x.isPositive = false)}

variable {factors : List Binary64}

theorem mem_faultyPlaces {i : Nat} :
    i ∈ faultyPlaces factors ↔ ∃ x, factors[i]? = some x ∧ x.isFactor = false := by
  simp only [faultyPlaces, Set.mem_ofPred_eq, Binary64.isFactor, Bool.and_eq_false_iff]

theorem fault?_eq_none_iff_sound : fault? factors = none ↔ Sound factors := by
  constructor
  · intro h
    refine ⟨?_, fun f hf => Scoring.isFactor_iff.mp (isFactor_of_mem ⟨factors, h⟩ hf)⟩
    rintro rfl
    cases h
  · rintro ⟨hne, hfactor⟩
    rw [fault?, if_neg (mt List.isEmpty_iff.mp hne), Option.map_eq_none_iff, List.find?_eq_none]
    intro entry hentry
    have hmem := Scoring.isFactor_iff.mpr (hfactor _ (List.fst_mem_of_mem_zipIdx hentry))
    simp only [hmem, Bool.not_true, Bool.false_eq_true, not_false_eq_true]

theorem find?_zipIdx_eq_some_iff {index : Nat} {value : Binary64} :
    (factors.zipIdx.find? fun (x, _) => !x.isFactor) = some (value, index) ↔
      factors[index]? = some value ∧ IsLeast (faultyPlaces factors) index := by
  simp only [List.find?_eq_some_iff_getElem, List.getElem_zipIdx, List.length_zipIdx,
    Nat.zero_add, Prod.mk.injEq, Bool.not_eq_true', Bool.not_not]
  constructor
  · rintro ⟨hfaulty, i, hi, ⟨rfl, rfl⟩, hfirst⟩
    have hentry : factors[i]? = some factors[i] := List.getElem?_eq_getElem hi
    refine ⟨hentry, mem_faultyPlaces.mpr ⟨_, hentry, hfaulty⟩, fun j hj => ?_⟩
    obtain ⟨x, hx, hbad⟩ := mem_faultyPlaces.mp hj
    obtain ⟨hlt, rfl⟩ := List.getElem?_eq_some_iff.mp hx
    by_contra hji
    have hgood := hfirst j (Nat.not_le.mp hji)
    rw [hbad] at hgood
    cases hgood
  · rintro ⟨hentry, hplace, hleast⟩
    obtain ⟨hindex, rfl⟩ := List.getElem?_eq_some_iff.mp hentry
    obtain ⟨x, hx, hbad⟩ := mem_faultyPlaces.mp hplace
    rw [hentry, Option.some.injEq] at hx
    refine ⟨hx ▸ hbad, index, hindex, ⟨rfl, rfl⟩, fun j hj => ?_⟩
    by_contra hgood
    have hplace' : j ∈ faultyPlaces factors :=
      mem_faultyPlaces.mpr ⟨_, List.getElem?_eq_getElem (Nat.lt_trans hj hindex),
        Bool.eq_false_iff.mpr hgood⟩
    exact Nat.not_le.mpr hj (hleast hplace')

theorem fault?_eq_some_iff {fault : InputFault} :
    fault? factors = some fault ↔
      (factors = [] ∧ fault = .emptyTable) ∨
      ∃ index value, factors[index]? = some value ∧ IsLeast (faultyPlaces factors) index ∧
        fault = .tableEntry index value := by
  cases factors with
  | nil => simp [fault?, eq_comm]
  | cons first rest =>
    simp only [fault?, List.isEmpty_cons, Bool.false_eq_true, if_false, Option.map_eq_some_iff,
      Prod.exists, find?_zipIdx_eq_some_iff, reduceCtorEq, false_and, false_or, and_assoc]
    constructor
    · rintro ⟨value, index, hentry, hleast, rfl⟩
      exact ⟨index, value, hentry, hleast, rfl⟩
    · rintro ⟨index, value, hentry, hleast, rfl⟩
      exact ⟨value, index, hentry, hleast, rfl⟩

end DecayTable

/-! ## Results -/

namespace Scoring

theorem scoreFault?_eq_some_iff {results : List ProblemResult} {fault : InputFault} :
    scoreFault? results = some fault ↔
      ∃ earlier r later, results = earlier ++ r :: later ∧ r.bestScore.Unsummable ∧
        (∀ e ∈ earlier, ¬ e.bestScore.Unsummable) ∧ fault = .score r.problem r.bestScore := by
  simp only [scoreFault?, Option.map_eq_some_iff, List.find?_eq_some_iff_append,
    ← isScore_eq_false_iff, Bool.not_eq_false, Bool.not_eq_true', Bool.not_not]
  constructor
  · rintro ⟨r, ⟨hfaulty, earlier, later, hsplit, hfirst⟩, rfl⟩
    exact ⟨earlier, r, later, hsplit, hfaulty, hfirst, rfl⟩
  · rintro ⟨earlier, r, later, hsplit, hfaulty, hfirst, rfl⟩
    exact ⟨r, ⟨hfaulty, earlier, later, hsplit, hfirst⟩, rfl⟩

theorem scoreFault?_eq_none_iff_summable {results : List ProblemResult} :
    scoreFault? results = none ↔ ∀ r ∈ results, ¬ r.bestScore.Unsummable := by
  simp only [scoreFault?_eq_none_iff, ← isScore_eq_false_iff, Bool.not_eq_false]

/-- The outcome of scoring some results, by conditions of which exactly one holds. -/
inductive Outcome (factors : List Binary64) (bonus : SolvedCount → Binary64)
    (results : List ProblemResult) : Except InputFault Snapshot → Prop
  | emptyTable (table : factors = []) : Outcome factors bonus results (.error .emptyTable)
  | tableEntry {index : Nat} {value : Binary64} (entry : factors[index]? = some value)
    (least : IsLeast (DecayTable.faultyPlaces factors) index) :
    Outcome factors bonus results (.error (.tableEntry index value))
  | score (table : DecayTable.Sound factors) {earlier later : List ProblemResult}
    {r : ProblemResult} (split : results = earlier ++ r :: later)
    (faulty : r.bestScore.Unsummable) (first : ∀ e ∈ earlier, ¬ e.bestScore.Unsummable) :
    Outcome factors bonus results (.error (.score r.problem r.bestScore))
  | snapshot (table : DecayTable.Sound factors)
    (scores : ∀ r ∈ results, ¬ r.bestScore.Unsummable) {s : Snapshot}
    (points : s = ⟨total results, solvedAmong results,
      weighted factors results + bonus (solvedAmong results)⟩)
    (number : s.totalPoints.isNaN = false) (notNegative : s.totalPoints.isNegative = false) :
    Outcome factors bonus results (.ok s)

variable {factors : List Binary64} {bonus : SolvedCount → Binary64} {results : List ProblemResult}

theorem compute_eq_error_iff {fault : InputFault} :
    compute factors bonus results = .error fault ↔
      Outcome factors bonus results (.error fault) := by
  rw [compute, snapshot_eq_error_iff, fault?, Option.or_eq_some_iff, DecayTable.fault?_eq_some_iff,
    DecayTable.fault?_eq_none_iff_sound, scoreFault?_eq_some_iff]
  constructor
  · rintro ((⟨htable, rfl⟩ | ⟨index, value, hentry, hleast, rfl⟩) |
      ⟨htable, earlier, r, later, hsplit, hfaulty, hfirst, rfl⟩)
    · exact .emptyTable htable
    · exact .tableEntry hentry hleast
    · exact .score htable hsplit hfaulty hfirst
  · intro h
    cases h with
    | emptyTable htable => exact .inl (.inl ⟨htable, rfl⟩)
    | tableEntry hentry hleast => exact .inl (.inr ⟨_, _, hentry, hleast, rfl⟩)
    | score htable hsplit hfaulty hfirst =>
      exact .inr ⟨htable, _, _, _, hsplit, hfaulty, hfirst, rfl⟩

theorem compute_eq_ok_iff {s : Snapshot} :
    compute factors bonus results = .ok s ↔ Outcome factors bonus results (.ok s) := by
  rw [compute, snapshot_eq_ok_iff, fault?, Option.or_eq_none_iff,
    DecayTable.fault?_eq_none_iff_sound, scoreFault?_eq_none_iff_summable]
  constructor
  · rintro ⟨⟨htable, hscores⟩, rfl⟩
    have htotal := zero_le_total (scoreFault?_eq_none_iff.mp
      (scoreFault?_eq_none_iff_summable.mpr hscores))
    exact .snapshot htable hscores rfl (Binary64.isNaN_right_of_le htotal)
      (Binary64.isNegative_of_zero_le htotal)
  · intro h
    cases h with
    | snapshot htable hscores hpoints => exact ⟨⟨htable, hscores⟩, hpoints⟩

end Scoring

/-! ## Tallies -/

namespace Tally

open Binary64 (infinity)

variable {records : List Submission}

theorem unsummable_of_mem_results {r : ProblemResult} (hr : r ∈ (ofSubmissions records).results) :
    r.bestScore.Unsummable ↔ r.bestScore = infinity false := by
  obtain ⟨-, hpositive, -⟩ := resultOn?_eq_some_iff.mp (mem_results.mp hr)
  rw [← Scoring.isScore_eq_false_iff]
  constructor
  · intro hfaulty
    by_contra hne
    have hscore := Scoring.isScore_iff.mpr ⟨Binary64.isFinite_of_isPositive hpositive hne,
      Binary64.zero_le_of_isPositive hpositive⟩
    rw [hfaulty] at hscore
    cases hscore
  · intro heq
    rw [heq]
    decide

/-- No score is above the infinite one, so it is the best wherever it was awarded. -/
theorem awarded_infinity_iff {problem : Int} :
    Awarded records problem (infinity false) ↔
      ∃ r ∈ (ofSubmissions records).results, r.problem = problem ∧
        r.bestScore = infinity false := by
  constructor
  · intro h
    obtain ⟨r, hr, hle⟩ := exists_resultOn? h (by decide)
    have hge := Binary64.le_infinity (Binary64.isNaN_right_of_le hle)
    have hbest : infinity false = r.bestScore := Binary64.eq_of_le_of_le (by decide) hle hge
    obtain ⟨hproblem, -⟩ := resultOn?_eq_some_iff.mp hr
    rw [← hproblem] at hr
    exact ⟨r, mem_results.mpr hr, hproblem, hbest.symm⟩
  · rintro ⟨r, hr, rfl, hbest⟩
    obtain ⟨-, -, hawarded, -⟩ := resultOn?_eq_some_iff.mp (mem_results.mp hr)
    rwa [hbest] at hawarded

theorem scoreFault?_results_eq_none_iff :
    Scoring.scoreFault? (ofSubmissions records).results = none ↔
      ∀ s ∈ records, s.score ≠ some (infinity false) := by
  rw [Scoring.scoreFault?_eq_none_iff_summable]
  constructor
  · intro h s hs hscore
    obtain ⟨r, hr, -, hbest⟩ := awarded_infinity_iff.mp ⟨s, hs, rfl, hscore⟩
    exact h r hr ((unsummable_of_mem_results hr).mpr hbest)
  · intro h r hr hfaulty
    obtain ⟨s, hs, -, hscore⟩ :=
      awarded_infinity_iff.mpr ⟨r, hr, rfl, (unsummable_of_mem_results hr).mp hfaulty⟩
    exact h s hs hscore

theorem isScore_of_no_infinity (h : ∀ s ∈ records, s.score ≠ some (infinity false)) :
    ∀ r ∈ (ofSubmissions records).results, Scoring.isScore r.bestScore = true :=
  Scoring.scoreFault?_eq_none_iff.mp (scoreFault?_results_eq_none_iff.mpr h)

theorem exists_scoreFault?_iff :
    (∃ fault, Scoring.scoreFault? (ofSubmissions records).results = some fault) ↔
      ∃ s ∈ records, s.score = some (infinity false) := by
  rw [← Option.ne_none_iff_exists', ne_eq, scoreFault?_results_eq_none_iff]
  simp only [ne_eq, not_forall, not_not, exists_prop]

/-- Of the results with the infinite score the one of the smallest problem comes first. -/
theorem isLeast_of_scoreFault? {fault : InputFault}
    (h : Scoring.scoreFault? (ofSubmissions records).results = some fault) :
    ∃ problem, IsLeast {problem | Awarded records problem (infinity false)} problem ∧
      fault = .score problem (infinity false) := by
  obtain ⟨earlier, r, later, hsplit, hfaulty, hfirst, rfl⟩ := Scoring.scoreFault?_eq_some_iff.mp h
  have hmem : ∀ {e}, e ∈ earlier ++ r :: later → e ∈ (ofSubmissions records).results :=
    fun he => hsplit ▸ he
  have hr := hmem (List.mem_append_right earlier List.mem_cons_self)
  have hbest := (unsummable_of_mem_results hr).mp hfaulty
  refine ⟨r.problem, ⟨awarded_infinity_iff.mpr ⟨r, hr, rfl, hbest⟩, fun problem hproblem => ?_⟩,
    by rw [hbest]⟩
  obtain ⟨r', hr', rfl, hbest'⟩ := awarded_infinity_iff.mp hproblem
  -- No infinite score comes before `r`; after it equal scores are in the order of their problems.
  have hsorted := descending_results records
  rw [hsplit] at hr' hsorted
  rcases List.mem_append.mp hr' with hearlier | hrest
  · exact absurd ((unsummable_of_mem_results (hmem hr')).mpr hbest') (hfirst r' hearlier)
  · rcases List.mem_cons.mp hrest with rfl | hlater
    · exact Int.le_refl _
    · have horder := (List.pairwise_cons.mp (List.pairwise_append.mp hsorted).2.1).1 r' hlater
      rw [hbest, hbest'] at horder
      rcases horder with hless | ⟨-, hproblem⟩
      · cases hless
      · exact Int.le_of_lt hproblem

theorem scoreFault?_results_eq_some_iff {fault : InputFault} :
    Scoring.scoreFault? (ofSubmissions records).results = some fault ↔
      ∃ problem, IsLeast {problem | Awarded records problem (infinity false)} problem ∧
        fault = .score problem (infinity false) := by
  refine ⟨isLeast_of_scoreFault?, ?_⟩
  rintro ⟨problem, hleast, rfl⟩
  obtain ⟨s, hs, -, hscore⟩ := hleast.1
  obtain ⟨fault, hfault⟩ := exists_scoreFault?_iff.mpr ⟨s, hs, hscore⟩
  obtain ⟨problem', hleast', rfl⟩ := isLeast_of_scoreFault? hfault
  rw [hfault, hleast.unique hleast']

end Tally

theorem Scorer.computeTally_eq_error_iff {scorer : Scorer} {tally : Tally} {fault : InputFault} :
    scorer.computeTally tally = .error fault ↔
      Scoring.scoreFault? tally.results = some fault := by
  rw [computeTally, Scoring.snapshot_eq_error_iff, Scoring.fault?, scorer.table.faultless,
    Option.none_or]

theorem Scorer.computeTally_ne_error {scorer : Scorer} {records : List Submission}
    (h : ∀ s ∈ records, s.score ≠ some (.infinity false)) (fault : InputFault) :
    scorer.computeTally (.ofSubmissions records) ≠ .error fault := by
  rw [ne_eq, computeTally_eq_error_iff, Tally.scoreFault?_results_eq_none_iff.mpr h]
  exact (Option.some_ne_none fault).symm

namespace Scoring

open Binary64 (infinity)

/-- A table that was built has no fault. -/
theorem ne_table_fault {table : DecayTable} {bonus : SolvedCount → Binary64}
    {results : List ProblemResult} {fault : InputFault}
    (h : compute table.factors bonus results = .error fault) :
    fault ≠ .emptyTable ∧ ∀ index value, fault ≠ .tableEntry index value := by
  rw [compute, snapshot_eq_error_iff, Scoring.fault?, table.faultless, Option.none_or,
    scoreFault?_eq_some_iff] at h
  obtain ⟨-, -, -, -, -, -, rfl⟩ := h
  exact ⟨InputFault.noConfusion, fun _ _ => InputFault.noConfusion⟩

/-- Scoring has the outcome that its inputs decide, and no other.  A table that was built causes no
fault, and what stops the scoring of a tally is an infinite score, with the smallest problem that
was awarded one. -/
theorem scoring_blames_first_culprit (factors : List Binary64) (bonus : SolvedCount → Binary64)
    (results : List ProblemResult) (scorer : Scorer) (records : List Submission) :
    (∀ outcome, compute factors bonus results = outcome ↔
      Outcome factors bonus results outcome) ∧
    (∀ table, ((∃ ratio entries, DecayTable.geometric ratio entries = .ok table) ∨
        ∃ listed, DecayTable.ofFactors listed = .ok table) →
      ∀ fault, compute table.factors bonus results = .error fault →
        fault ≠ .emptyTable ∧ ∀ index value, fault ≠ .tableEntry index value) ∧
    ((∃ fault, scorer.computeTally (.ofSubmissions records) = .error fault) ↔
      ∃ s ∈ records, s.score = some (infinity false)) ∧
    ∀ fault, scorer.computeTally (.ofSubmissions records) = .error fault ↔
      ∃ problem, IsLeast {problem | ∃ s ∈ records, s.problem = problem ∧
          s.score = some (infinity false)} problem ∧
        fault = .score problem (infinity false) := by
  refine ⟨fun outcome => ?_, fun _ _ _ => ne_table_fault, ?_, fun fault => ?_⟩
  · cases outcome with
    | error fault => exact compute_eq_error_iff
    | ok s => exact compute_eq_ok_iff
  · simp only [Scorer.computeTally_eq_error_iff]
    exact Tally.exists_scoreFault?_iff
  · rw [Scorer.computeTally_eq_error_iff]
    exact Tally.scoreFault?_results_eq_some_iff

/-- Several faults at once: of the table's the second entry, of the results the second, and of the
two problems with an infinite score the smaller one. -/
theorem scoring_blames_first_culprit_several :
    let minusOne : Binary64 := Binary64.one.neg
    let results : List ProblemResult :=
      [⟨9, .negativeZero, true⟩, ⟨8, .nan, false⟩, ⟨1, minusOne, true⟩]
    let records : List Submission :=
      [⟨7, some (infinity false), true, .one, .one⟩, ⟨2, some .nan, true, .one, .one⟩,
        ⟨3, some (infinity false), false, .zero, .one⟩, ⟨3, some .one, true, .one, .one⟩]
    let scorer : Scorer := ⟨⟨[.one], by decide⟩, .none⟩
    let bonus : SolvedCount → Binary64 := fun _ => .nan
    compute [.one, minusOne, .nan] bonus results = .error (.tableEntry 1 minusOne) ∧
    (∃ table, DecayTable.geometric .one 1 = .ok table ∧
      compute table.factors bonus results = .error (.score 8 .nan) ∧
      InputFault.score 8 .nan ≠ .emptyTable ∧
      ∀ index value, InputFault.score 8 .nan ≠ .tableEntry index value) ∧
    scorer.computeTally (.ofSubmissions records) = .error (.score 3 (infinity false)) := by
  intro minusOne results records scorer bonus
  have htable : DecayTable.geometric .one 1 = .ok ⟨[.one], by decide⟩ :=
    DecayTable.geometric_one (by decide)
  have hscore : compute [.one] bonus results = .error (.score 8 .nan) := rfl
  have hleast : IsLeast {problem | ∃ s ∈ records, s.problem = problem ∧
      s.score = some (infinity false)} 3 := by
    refine ⟨⟨_, List.mem_of_getElem? (i := 2) rfl, rfl, rfl⟩, ?_⟩
    rintro problem ⟨s, hs, rfl, hinfinite⟩
    revert hinfinite
    revert s
    decide
  have hplace : IsLeast (DecayTable.faultyPlaces [.one, minusOne, .nan]) 1 := by
    refine ⟨⟨minusOne, rfl, by decide⟩, ?_⟩
    rintro index ⟨x, hx, hfaulty⟩
    by_contra hlt
    obtain rfl : index = 0 := by omega
    cases hx
    exact absurd hfaulty (by decide)
  obtain ⟨houtcome, -, -, htally⟩ :=
    scoring_blames_first_culprit [.one, minusOne, .nan] bonus results scorer records
  obtain ⟨-, htables, -⟩ := scoring_blames_first_culprit [.one] bonus results scorer records
  refine ⟨(houtcome _).mpr (.tableEntry rfl hplace), ⟨_, htable, hscore, ?_⟩,
    (htally _).mpr ⟨3, hleast, rfl⟩⟩
  exact htables _ (.inl ⟨_, _, htable⟩) _ hscore

end Scoring
end Contestant
