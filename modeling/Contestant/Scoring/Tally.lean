import Contestant.Scoring.Bonus

/-!
From submissions to one result per problem.

A problem's best score is the largest of its scores, where a missing score does not count and a
not-a-number gives way to any number.  A tally keeps the problems with a positive best score,
best first, and counts the fully solved problems whether or not they carry a score.
-/

namespace Contestant

/-- One graded or pending submission on a public problem. -/
structure Submission where
  problem : Int
  /-- The awarded points; none while the submission is ungraded. -/
  score : Option Binary64
  accepted : Bool
  casePoints : Binary64
  caseTotal : Binary64
  deriving DecidableEq

/-- Accepted, with the points of every test case awarded. -/
def Submission.isFullSolve (s : Submission) : Bool := s.accepted && s.caseTotal.atMost s.casePoints

structure ProblemResult where
  problem : Int
  bestScore : Binary64
  fullySolved : Bool
  deriving DecidableEq

namespace ProblemResult

/-- Larger scores first in the total order of doubles, then smaller problem ids. -/
def order (a b : ProblemResult) : Ordering :=
  (b.bestScore.totalCompare a.bestScore).then (compare a.problem b.problem)

def precedes (a b : ProblemResult) : Bool := (order a b).isLE

/-- Results from the strongest to the weakest. -/
def sort (results : List ProblemResult) : List ProblemResult := results.mergeSort precedes

end ProblemResult

/-- The outcome of all of a contestant's submissions. -/
structure Tally where
  /-- One entry per problem with a positive best score, strongest first. -/
  results : List ProblemResult
  /-- How many problems are fully solved, scored or not. -/
  solved : SolvedCount
  deriving DecidableEq

namespace Tally

/-- The ids of the problems submitted to, ascending and without repetition. -/
def problems (records : List Submission) : List Int :=
  (records.map Submission.problem).eraseDups.mergeSort (fun a b => decide (a ≤ b))

def submissionsOn (problem : Int) (records : List Submission) : List Submission :=
  records.filter (·.problem = problem)

def bestScore? (records : List Submission) : Option Binary64 :=
  match records.filterMap Submission.score with
  | [] => none
  | first :: rest => some (rest.foldl Binary64.max first)

def isSolved (records : List Submission) : Bool := records.any Submission.isFullSolve

/-- The result on one problem, if its best score is positive. -/
def resultOn? (records : List Submission) (problem : Int) : Option ProblemResult :=
  let own := submissionsOn problem records
  match bestScore? own with
  | some best => if best.isPositive then some ⟨problem, best, isSolved own⟩ else none
  | none => none

def ofSubmissions (records : List Submission) : Tally :=
  let ids := problems records
  { results := ProblemResult.sort (ids.filterMap (resultOn? records))
    solved := .ofNat (ids.countP fun id => isSolved (submissionsOn id records)) }

end Tally
end Contestant
