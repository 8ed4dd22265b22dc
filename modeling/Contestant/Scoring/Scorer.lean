import Contestant.Scoring.DecayTable
import Contestant.Scoring.Tally

/-!
Scoring: totals and performance points of a list of results.

The results are ordered from the strongest to the weakest.  The total sums all scores in that
order; the performance points sum the scores weighted by the decay table, whose length bounds how
many results count, and add the bonus for the solved problems.
-/

namespace Contestant

structure Snapshot where
  totalPoints : Binary64
  solved : SolvedCount
  performancePoints : Binary64
  deriving DecidableEq

namespace Snapshot

def blank : Snapshot := ⟨.zero, 0, .zero⟩

/-- Whether some field differs numerically: the zeros agree, and a not-a-number agrees with
nothing. -/
def differsFrom (a b : Snapshot) : Bool :=
  !a.totalPoints.numericallyEqual b.totalPoints || a.solved != b.solved ||
    !a.performancePoints.numericallyEqual b.performancePoints

end Snapshot

namespace Scoring

/-- A score that can be summed is finite and not below zero. -/
def isScore (x : Binary64) : Bool := x.isFinite && !x.isNegative

/-- The first result, in the given order, whose score cannot be summed. -/
def scoreFault? (results : List ProblemResult) : Option InputFault :=
  (results.find? fun r => !isScore r.bestScore).map fun r => .score r.problem r.bestScore

/-- A table's fault comes before any fault of the results. -/
def fault? (factors : List Binary64) (results : List ProblemResult) : Option InputFault :=
  (DecayTable.fault? factors).or (scoreFault? results)

/-- The sum of the scores, strongest first. -/
def total (results : List ProblemResult) : Binary64 :=
  .sum ((ProblemResult.sort results).map ProblemResult.bestScore)

/-- The sum of the strongest scores times the factors, as far as both go. -/
def weighted (factors : List Binary64) (results : List ProblemResult) : Binary64 :=
  .sum (List.zipWith (fun factor r => factor * r.bestScore) factors (ProblemResult.sort results))

def solvedAmong (results : List ProblemResult) : SolvedCount :=
  .ofNat (results.countP ProblemResult.fullySolved)

/-- The snapshot of some results when `solved` problems count for the bonus, which may be any
function of their number. -/
def snapshot (factors : List Binary64) (bonus : SolvedCount → Binary64)
    (results : List ProblemResult) (solved : SolvedCount) : Except InputFault Snapshot :=
  match fault? factors results with
  | some fault => .error fault
  | none => .ok ⟨total results, solved, weighted factors results + bonus solved⟩

/-- The snapshot of some results, with the solved problems counted among them. -/
def compute (factors : List Binary64) (bonus : SolvedCount → Binary64)
    (results : List ProblemResult) : Except InputFault Snapshot :=
  snapshot factors bonus results (solvedAmong results)

end Scoring

structure Scorer where
  table : DecayTable
  bonus : Bonus

namespace Scorer

def compute (scorer : Scorer) (results : List ProblemResult) : Except InputFault Snapshot :=
  Scoring.compute scorer.table.factors scorer.bonus.points results

/-- The snapshot of a tally.  Solved problems without a positive score count for the bonus too, so
the tally's own count is used. -/
def computeTally (scorer : Scorer) (tally : Tally) : Except InputFault Snapshot :=
  Scoring.snapshot scorer.table.factors scorer.bonus.points tally.results tally.solved

end Scorer
end Contestant
