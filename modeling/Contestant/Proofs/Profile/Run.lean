import Contestant.Proofs.Profile.Recalculation

/-!
Runs of recalculations, and of what happens to the store between them.

Submissions come and go, the stored snapshot is overwritten, accesses fail and recover, and the
points are recalculated with any scorer.  A recalculation never changes the submissions, so those
present at a moment of a run are fixed by the events alone: `submissions_exec`.  What one answers
with is their score and takes nothing from the snapshots that were stored or computed before.
-/

namespace Contestant
namespace ProfileStore

/-- A step of a run. -/
inductive Action
  | event (event : Event)
  | recalculate (scorer : Scorer)

def next (store : ProfileStore) : Action → ProfileStore
  | .event event => store.apply event
  | .recalculate scorer => (store.recalculate scorer).2

def exec (store : ProfileStore) (actions : List Action) : ProfileStore :=
  actions.foldl next store

/-- The submissions after one step: a batch was added, or all were taken away, or nothing. -/
def Action.present (submissions : List Submission) : Action → List Submission
  | .event (.submit records) => submissions ++ records
  | .event .clear => []
  | .event (.overwrite _) | .event (.outage _) | .event (.fail _ _) | .event (.recover _)
  | .recalculate _ => submissions

/-- The submissions after a run. -/
def present (submissions : List Submission) (actions : List Action) : List Submission :=
  actions.foldl Action.present submissions

theorem submissions_recalculate (store : ProfileStore) (scorer : Scorer) :
    (store.recalculate scorer).2.submissions = store.submissions := by
  rcases store.recalculate_cases scorer with
    ⟨fault, -, heq⟩ | ⟨s, -, ⟨-, heq⟩ | ⟨-, heq⟩⟩ <;> rw [heq]
  rfl

theorem submissions_next (store : ProfileStore) (action : Action) :
    (store.next action).submissions = action.present store.submissions := by
  cases action with
  | event event => cases event <;> rfl
  | recalculate scorer => exact store.submissions_recalculate scorer

theorem submissions_exec (store : ProfileStore) (actions : List Action) :
    (store.exec actions).submissions = present store.submissions actions := by
  induction actions generalizing store with
  | nil => rfl
  | cons action rest ih =>
    calc ((store.next action).exec rest).submissions
        = present (store.next action).submissions rest := ih _
      _ = present (action.present store.submissions) rest := by rw [submissions_next]

/-- Whatever has happened before it, a recalculation fails only if an access is down or the
submissions that are present cannot be scored, and then it leaves the store as it was.  One that
succeeds answers with their score, and it saves that, with one more write, exactly if the stored
snapshot did not agree with it; otherwise it leaves the store as it was. -/
theorem recalculation_stores_score (start : ProfileStore) (earlier : List Action)
    (scorer : Scorer) :
    let before := start.exec earlier
    let after := (before.recalculate scorer).2
    let score := scorer.computeTally (.ofSubmissions (present start.submissions earlier))
    (∀ fault, (before.recalculate scorer).1 = .error fault →
      after = before ∧
      ((∃ access, before.faults access = some fault) ∨
        ∃ input, score = .error input ∧ input.toService = fault)) ∧
    ∀ s, (before.recalculate scorer).1 = .ok s →
      score = .ok s ∧
      (after.stored = s ∧ after.writes = before.writes + 1 ∧ ¬ s.Agrees before.stored ∨
        after = before ∧ s.Agrees before.stored) := by
  intro before after score
  have hpresent := start.submissions_exec earlier
  refine ⟨fun fault h => ?_, fun s h => ?_⟩
  · obtain ⟨hcause, hafter⟩ := recalculate_error h
    rw [scored_eq_error_iff, hpresent] at hcause
    exact ⟨hafter, hcause.symm⟩
  · obtain ⟨hscored, hafter⟩ := recalculate_ok h
    rw [scored_eq_ok_iff, hpresent] at hscored
    refine ⟨hscored, ?_⟩
    rcases hafter with ⟨hagrees, hafter⟩ | ⟨hdiffers, hafter⟩
    · exact .inr ⟨hafter, hagrees⟩
    · rw [show after = before.save s from hafter]
      exact .inl ⟨rfl, rfl, hdiffers⟩

end ProfileStore
end Contestant
