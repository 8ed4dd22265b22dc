import Contestant.Proofs.Number.Monotone
import Contestant.Proofs.Scoring.Reported
import Contestant.Proofs.Scoring.Scorer

/-!
The order of results.

Results are compared by the ranks of their scores, reversed, and then by their problems.  Ranks and
problems are integers, so the comparison is as consistent as that of integers, whatever bits the
scores have; and ranks follow the values of numbers wherever two scores are numbers of different
values.  Hence any way of sorting that relies on the comparison ends up with the same scores in the
same places, and with the same results where no problem comes twice.
-/

namespace Contestant

namespace Binary64

/-- One number has a smaller value than another.  The infinities are the ends of the line, and no
other number has the value of one. -/
inductive Below : Binary64 → Binary64 → Prop
  | finite {x y : Binary64} (left : x.isFinite = true) (right : y.isFinite = true)
    (scaled_lt : x.scaled < y.scaled) : Below x y
  | infinite {x : Binary64} (number : x.isNaN = false) (ne : x ≠ infinity false) :
    Below x (infinity false)
  | negativeInfinite {y : Binary64} (number : y.isNaN = false) (ne : y ≠ infinity true) :
    Below (infinity true) y

variable {x y : Binary64}

theorem rank_bounds (h : x.isNaN = false) :
    (infinity true).rank ≤ x.rank ∧ x.rank ≤ (infinity false).rank := by
  have hbody := isNaN_eq_false_iff.mp h
  have hleast : (infinity true).rank = -(infiniteBody : Int) - 1 := by decide
  have hlargest : (infinity false).rank = infiniteBody := by decide
  rw [hleast, hlargest, rank]
  split <;> omega

/-- Ranks follow values, except that of two zeros the one with the sign has the lower rank. -/
theorem Below.rank_lt (h : Below x y) : x.rank < y.rank := by
  cases h with
  | finite hx hy hlt =>
    by_contra hrank
    have hle := le_of_rank_le (isNaN_of_isFinite hy) (isNaN_of_isFinite hx) (Int.not_lt.mp hrank)
    have hscaled := scaled_mono (le_iff.mp hle).2.2
    omega
  | infinite hx hne =>
    have hrank := rank_injective.ne hne
    have hle := (rank_bounds hx).2
    omega
  | negativeInfinite hy hne =>
    have hrank := rank_injective.ne hne
    have hle := (rank_bounds hy).1
    omega

theorem below_or_eq_of_isInfinite (hx : x.isNaN = false) (hy : y.isInfinite = true) :
    x.Below y ∨ x = y ∨ y.Below x := by
  by_cases heq : x = y
  · exact .inr (.inl heq)
  · cases hs : y.sign with
    | false =>
      obtain rfl := eq_infinity_iff.mpr ⟨hy, hs⟩
      exact .inl (.infinite hx heq)
    | true =>
      obtain rfl := eq_infinity_iff.mpr ⟨hy, hs⟩
      exact .inr (.inr (.negativeInfinite hx heq))

/-- Of two numbers one has the smaller value or they are numerically equal. -/
theorem below_trichotomy (hx : x.isNaN = false) (hy : y.isNaN = false) :
    x.Below y ∨ x.numericallyEqual y = true ∨ y.Below x := by
  have hself : x = y → x.numericallyEqual y = true := by
    rintro rfl
    rw [numericallyEqual_self, hx, Bool.not_false]
  rcases isFinite_or_isInfinite hx with hxf | hxi
  · rcases isFinite_or_isInfinite hy with hyf | hyi
    · rcases Int.lt_trichotomy x.scaled y.scaled with hlt | heq | hgt
      · exact .inl (.finite hxf hyf hlt)
      · have hordinal : x.ordinal = y.ordinal := by
          rw [← roundedOrdinal_scaled hx, heq, roundedOrdinal_scaled hy]
        simp [numericallyEqual, hx, hy, hordinal]
      · exact .inr (.inr (.finite hyf hxf hgt))
    · exact (below_or_eq_of_isInfinite hx hyi).imp_right (Or.imp_left hself)
  · rcases below_or_eq_of_isInfinite hy hxi with h | heq | h
    · exact .inr (.inr h)
    · exact .inr (.inl (hself heq.symm))
    · exact .inl h

end Binary64

/-- A comparison on which sorting can rely: swapping turns the answer round, one of two elements is
never behind the other, and each answer carries over, as does that of not being behind. -/
structure Consistent {α : Type} (cmp : α → α → Ordering) : Prop where
  swap : ∀ a b, cmp b a = (cmp a b).swap
  total : ∀ a b, (cmp a b).isLE = true ∨ (cmp b a).isLE = true
  trans : ∀ answer a b c, cmp a b = answer → cmp b c = answer → cmp a c = answer
  isLE_trans : ∀ a b c, (cmp a b).isLE = true → (cmp b c).isLE = true → (cmp a c).isLE = true

namespace ProblemResult

instance : Std.TransCmp order :=
  inferInstanceAs (Std.TransCmp (compareLex
    (fun a b => compareOn (fun r : ProblemResult => r.bestScore.rank) b a) (compareOn problem)))

variable {a b : ProblemResult} {sorted results : List ProblemResult}

theorem consistent_order : Consistent order where
  swap a b := Std.OrientedCmp.eq_swap
  total a b := by
    have hswap : order b a = (order a b).swap := Std.OrientedCmp.eq_swap
    rw [hswap]
    cases order a b <;> decide
  trans answer a b c hab hbc := by
    cases answer with
    | lt => exact Std.TransCmp.lt_trans hab hbc
    | eq => exact Std.TransCmp.eq_trans hab hbc
    | gt => exact Std.TransCmp.gt_trans hab hbc
  isLE_trans a b c := Std.TransCmp.isLE_trans

theorem order_eq_eq_iff :
    order a b = .eq ↔ a.bestScore.bits = b.bestScore.bits ∧ a.problem = b.problem := by
  have hbits : a.bestScore.bits = b.bestScore.bits ↔ a.bestScore = b.bestScore :=
    ⟨fun h => congrArg Binary64.mk h, fun h => congrArg Binary64.bits h⟩
  rw [order, Ordering.then_eq_eq, Binary64.totalCompare, Int.compare_eq_eq, Int.compare_eq_eq,
    Binary64.rank_injective.eq_iff, hbits, eq_comm]

theorem order_eq_lt_of_below (h : b.bestScore.Below a.bestScore) : order a b = .lt := by
  rw [order, Ordering.then_eq_lt, Binary64.totalCompare, Int.compare_eq_lt]
  exact .inl h.rank_lt

theorem larger_first (ha : a.bestScore.isNaN = false) (hb : b.bestScore.isNaN = false) :
    b.bestScore.Below a.bestScore ∧ order a b = .lt ∨
      a.bestScore.numericallyEqual b.bestScore = true ∨
      a.bestScore.Below b.bestScore ∧ order b a = .lt := by
  rcases Binary64.below_trichotomy ha hb with h | h | h
  · exact .inr (.inr ⟨h, order_eq_lt_of_below h⟩)
  · exact .inr (.inl h)
  · exact .inl ⟨h, order_eq_lt_of_below h⟩

/-- A list of some results, however it was found, in which none stands before one that it is
behind. -/
structure Arranges (sorted results : List ProblemResult) : Prop where
  perm : sorted.Perm results
  ordered : sorted.Pairwise fun a b => (order a b).isLE = true

theorem arranges_sort (results : List ProblemResult) : Arranges (sort results) results :=
  ⟨sort_perm results, pairwise_sort results⟩

/-- Results that tie have the same score, so their places do not show in the scores. -/
theorem Arranges.map_bestScore (h : Arranges sorted results) :
    sorted.map bestScore = scores results := by
  refine Binary64.eq_of_perm_of_pairwise ((h.perm.map bestScore).trans (scores_perm results).symm)
    ?_ (pairwise_rank_scores results)
  rw [List.pairwise_map]
  exact h.ordered.imp rank_le_of_precedes

/-- Where no problem comes twice there are no ties. -/
theorem Arranges.eq_sort (h : Arranges sorted results) (hnodup : (results.map problem).Nodup) :
    sorted = sort results := by
  refine (h.perm.trans (sort_perm results).symm).eq_of_pairwise (fun a b ha hb hab hba => ?_)
    h.ordered (pairwise_sort results)
  have htie : order a b = .eq := Std.OrientedCmp.isLE_antisymm hab hba
  exact List.inj_on_of_nodup_map hnodup (h.perm.mem_iff.mp ha) (mem_sort.mp hb)
    (order_eq_eq_iff.mp htie).2

theorem arranges_results_iff {records : List Submission} :
    Arranges sorted ((Tally.problems records).filterMap (Tally.resultOn? records)) ↔
      sorted = (Tally.ofSubmissions records).results := by
  constructor
  · intro h
    exact h.eq_sort (Tally.nodup_problem_filterMap records)
  · rintro rfl
    exact arranges_sort _

/-- The comparison of results is consistent for scores of any bits.  It ties only results with the
same bits on the same problem, and of two numbers with different values it puts the larger first.
Some order of any results never contradicts it; however such an order is found, it has the same
scores in the same places, from which the sums come, and it is that of the tally if the results are
those of some submissions. -/
theorem results_totally_ordered :
    Consistent order ∧
    (∀ a b, order a b = .eq ↔ a.bestScore.bits = b.bestScore.bits ∧ a.problem = b.problem) ∧
    (∀ a b, a.bestScore.isNaN = false → b.bestScore.isNaN = false →
      b.bestScore.Below a.bestScore ∧ order a b = .lt ∨
        a.bestScore.numericallyEqual b.bestScore = true ∨
        a.bestScore.Below b.bestScore ∧ order b a = .lt) ∧
    (∀ results, Arranges (sort results) results ∧
      ∀ sorted, Arranges sorted results → sorted.map bestScore = scores results ∧
        Scoring.total results = .sum (sorted.map bestScore) ∧
        ∀ factors, Scoring.weighted factors results =
          .sum (List.zipWith (· * ·) factors (sorted.map bestScore))) ∧
    ∀ records sorted,
      Arranges sorted ((Tally.problems records).filterMap (Tally.resultOn? records)) ↔
        sorted = (Tally.ofSubmissions records).results := by
  refine ⟨consistent_order, fun _ _ => order_eq_eq_iff, fun _ _ => larger_first,
    fun results => ⟨arranges_sort results, fun sorted hsorted => ?_⟩,
    fun _ _ => arranges_results_iff⟩
  have hscores := hsorted.map_bestScore
  refine ⟨hscores, ?_, fun factors => ?_⟩
  · rw [hscores]
    rfl
  · rw [hscores, Scoring.weighted_eq]

/-- A tie on problem and score, which may be arranged either way, among zeros of both signs, an
infinity and a not-a-number. -/
theorem results_totally_ordered_ties :
    let unsolved : ProblemResult := ⟨1, .zero, false⟩
    let solved : ProblemResult := ⟨1, .zero, true⟩
    let negative : ProblemResult := ⟨1, .negativeZero, true⟩
    let least : ProblemResult := ⟨2, .infinity true, true⟩
    let noNumber : ProblemResult := ⟨3, .nan, false⟩
    let results := [least, unsolved, noNumber, negative, solved]
    let sorted := [noNumber, solved, unsolved, negative, least]
    solved.bestScore.isNaN = false ∧ least.bestScore.isNaN = false ∧
    least.bestScore.Below solved.bestScore ∧ order solved least = .lt ∧
    Arranges sorted results ∧ sorted.map bestScore = scores results := by
  intro unsolved solved negative least noNumber results sorted
  obtain ⟨-, -, hlarger, harranged, -⟩ := results_totally_ordered
  have hsolved : solved.bestScore.isNaN = false := by decide
  have hleast : least.bestScore.isNaN = false := by decide
  have hfirst : least.bestScore.Below solved.bestScore ∧ order solved least = .lt := by
    rcases hlarger solved least hsolved hleast with h | h | h
    · exact h
    · exact absurd h (by decide)
    · exact absurd h.2 (by decide)
  have hsorted : Arranges sorted results := ⟨by decide, by decide⟩
  exact ⟨hsolved, hleast, hfirst.1, hfirst.2, hsorted, ((harranged results).2 sorted hsorted).1⟩

end ProblemResult
end Contestant
