import Contestant.Profile.Recalculation
import Contestant.Proofs.Scoring.Tally

/-!
What a recalculation takes from its store.

Its outcome is a function of the accesses that are down, the snapshot that the submissions amount to
and the stored snapshot; the store is changed, if at all, by saving the new snapshot.  All that one
recalculation can do is in `recalculate_cases`.

The submissions matter only through their tally.  They come in no particular order and one of them
may come more than once, but a tally depends only on which submissions there are:
`points_eq_of_same_submissions`.
-/

namespace Contestant

/-- Field by field numerically equal. -/
structure Snapshot.Agrees (a b : Snapshot) : Prop where
  totalPoints : a.totalPoints.numericallyEqual b.totalPoints = true
  solved : a.solved = b.solved
  performancePoints : a.performancePoints.numericallyEqual b.performancePoints = true

theorem Snapshot.differsFrom_eq_false_iff {a b : Snapshot} :
    a.differsFrom b = false ↔ a.Agrees b := by
  simp only [differsFrom, Bool.or_eq_false_iff, Bool.not_eq_false', bne_eq_false_iff_eq]
  exact ⟨fun ⟨⟨total, solved⟩, points⟩ => ⟨total, solved, points⟩,
    fun ⟨total, solved, points⟩ => ⟨⟨total, solved⟩, points⟩⟩

namespace ProfileStore

/-- The snapshot that a recalculation answers with, and whether it saves it. -/
def outcome (faults : ProfileAccess → Option ServiceFault)
    (scored : Except ServiceFault Snapshot) (stored : Snapshot) :
    Except ServiceFault (Snapshot × Bool) :=
  match faults .submissions, scored, faults .read with
  | some fault, _, _ => .error fault
  | none, .error fault, _ => .error fault
  | none, .ok _, some fault => .error fault
  | none, .ok snapshot, none =>
    match snapshot.differsFrom stored, faults .write with
    | true, some fault => .error fault
    | differs, _ => .ok (snapshot, differs)

theorem recalculate_eq (store : ProfileStore) (scorer : Scorer) :
    store.recalculate scorer =
      match outcome store.faults (store.scored scorer) store.stored with
      | .error fault => (.error fault, store)
      | .ok (snapshot, true) => (.ok snapshot, store.save snapshot)
      | .ok (snapshot, false) => (.ok snapshot, store) := by
  simp only [recalculate, recalculated, outcome, answering, bind, Except.bind, pure, Except.pure]
  cases store.faults .submissions with
  | some fault => rfl
  | none =>
    cases store.scored scorer with
    | error fault => rfl
    | ok snapshot =>
      cases store.faults .read with
      | some fault => rfl
      | none =>
        cases hdiffers : snapshot.differsFrom store.stored with
        | false => simp [hdiffers]
        | true => cases store.faults .write <;> simp [hdiffers]

theorem scored_eq_ok_iff {store : ProfileStore} {scorer : Scorer} {s : Snapshot} :
    store.scored scorer = .ok s ↔
      scorer.computeTally (.ofSubmissions store.submissions) = .ok s := by
  rw [scored]
  cases scorer.computeTally (.ofSubmissions store.submissions) with
  | error fault => exact ⟨nofun, nofun⟩
  | ok snapshot => simp only [Except.mapError, Except.ok.injEq]

theorem scored_eq_error_iff {store : ProfileStore} {scorer : Scorer} {fault : ServiceFault} :
    store.scored scorer = .error fault ↔
      ∃ input, scorer.computeTally (.ofSubmissions store.submissions) = .error input ∧
        input.toService = fault := by
  rw [scored]
  cases scorer.computeTally (.ofSubmissions store.submissions) with
  | error input => simp only [Except.mapError, Except.error.injEq, exists_eq_left']
  | ok snapshot => exact ⟨nofun, nofun⟩

section

variable {store : ProfileStore} {scorer : Scorer} {s : Snapshot}

/-- While the stored snapshot agrees, the access that writes is not asked for. -/
theorem recalculate_of_agrees (hsubmissions : store.faults .submissions = none)
    (hread : store.faults .read = none) (hscored : store.scored scorer = .ok s)
    (hagrees : s.Agrees store.stored) : store.recalculate scorer = (.ok s, store) := by
  have hdiffers := Snapshot.differsFrom_eq_false_iff.mpr hagrees
  simp only [recalculate_eq, outcome, hsubmissions, hread, hscored, hdiffers]

theorem recalculate_of_differs (hsubmissions : store.faults .submissions = none)
    (hread : store.faults .read = none) (hwrite : store.faults .write = none)
    (hscored : store.scored scorer = .ok s) (hdiffers : s.differsFrom store.stored = true) :
    store.recalculate scorer = (.ok s, store.save s) := by
  simp only [recalculate_eq, outcome, hsubmissions, hread, hwrite, hscored, hdiffers]

theorem fst_recalculate_of_scored (hfaults : ∀ access, store.faults access = none)
    (hscored : store.scored scorer = .ok s) : (store.recalculate scorer).1 = .ok s := by
  cases hdiffers : s.differsFrom store.stored with
  | false =>
    have hagrees := Snapshot.differsFrom_eq_false_iff.mp hdiffers
    rw [recalculate_of_agrees (hfaults _) (hfaults _) hscored hagrees]
  | true => rw [recalculate_of_differs (hfaults _) (hfaults _) (hfaults _) hscored hdiffers]

end

/-- A recalculation fails as the scoring or an access does and leaves the store, or it answers with
what the submissions amount to, and saves that exactly if the stored snapshot does not agree. -/
theorem recalculate_cases (store : ProfileStore) (scorer : Scorer) :
    (∃ fault, (store.scored scorer = .error fault ∨ ∃ access, store.faults access = some fault) ∧
      store.recalculate scorer = (.error fault, store)) ∨
    ∃ s, store.scored scorer = .ok s ∧
      (s.Agrees store.stored ∧ store.recalculate scorer = (.ok s, store) ∨
        ¬ s.Agrees store.stored ∧ store.recalculate scorer = (.ok s, store.save s)) := by
  -- The cases come in the order in which a recalculation asks.
  cases hsubmissions : store.faults .submissions with
  | some fault =>
    refine .inl ⟨fault, .inr ⟨_, hsubmissions⟩, ?_⟩
    simp only [recalculate_eq, outcome, hsubmissions]
  | none =>
    cases hscored : store.scored scorer with
    | error fault =>
      refine .inl ⟨fault, .inl rfl, ?_⟩
      simp only [recalculate_eq, outcome, hsubmissions, hscored]
    | ok s =>
      cases hread : store.faults .read with
      | some fault =>
        refine .inl ⟨fault, .inr ⟨_, hread⟩, ?_⟩
        simp only [recalculate_eq, outcome, hsubmissions, hscored, hread]
      | none =>
        cases hdiffers : s.differsFrom store.stored with
        | false =>
          have hagrees := Snapshot.differsFrom_eq_false_iff.mp hdiffers
          exact .inr ⟨s, rfl, .inl ⟨hagrees,
            recalculate_of_agrees hsubmissions hread hscored hagrees⟩⟩
        | true =>
          cases hwrite : store.faults .write with
          | some fault =>
            refine .inl ⟨fault, .inr ⟨_, hwrite⟩, ?_⟩
            simp only [recalculate_eq, outcome, hsubmissions, hscored, hread, hdiffers, hwrite]
          | none =>
            refine .inr ⟨s, rfl, .inr ⟨fun hagrees => ?_,
              recalculate_of_differs hsubmissions hread hwrite hscored hdiffers⟩⟩
            rw [Snapshot.differsFrom_eq_false_iff.mpr hagrees] at hdiffers
            cases hdiffers

section

variable {store : ProfileStore} {scorer : Scorer}

theorem recalculate_error {fault : ServiceFault}
    (h : (store.recalculate scorer).1 = .error fault) :
    (store.scored scorer = .error fault ∨ ∃ access, store.faults access = some fault) ∧
      (store.recalculate scorer).2 = store := by
  rcases store.recalculate_cases scorer with
    ⟨fault', hcause, heq⟩ | ⟨s, -, ⟨-, heq⟩ | ⟨-, heq⟩⟩ <;> rw [heq] at h ⊢ <;> cases h
  exact ⟨hcause, rfl⟩

theorem recalculate_ok {s : Snapshot} (h : (store.recalculate scorer).1 = .ok s) :
    store.scored scorer = .ok s ∧
      (s.Agrees store.stored ∧ (store.recalculate scorer).2 = store ∨
        ¬ s.Agrees store.stored ∧ (store.recalculate scorer).2 = store.save s) := by
  rcases store.recalculate_cases scorer with
    ⟨fault, -, heq⟩ | ⟨s', hscored, ⟨hagrees, heq⟩ | ⟨hdiffers, heq⟩⟩ <;>
    rw [heq] at h ⊢ <;> cases h
  · exact ⟨hscored, .inl ⟨hagrees, rfl⟩⟩
  · exact ⟨hscored, .inr ⟨hdiffers, rfl⟩⟩

end

/-- With the same tally a recalculation comes to the same and does the same. -/
theorem recalculate_of_ofSubmissions_eq {a b : List Submission}
    (h : Tally.ofSubmissions a = Tally.ofSubmissions b) (store : ProfileStore) (scorer : Scorer) :
    let onA := ({ store with submissions := a }).recalculate scorer
    let onB := ({ store with submissions := b }).recalculate scorer
    onA.1 = onB.1 ∧ onA.2 = { onB.2 with submissions := a } := by
  intro onA onB
  have hscored : ({ store with submissions := a } : ProfileStore).scored scorer =
      ({ store with submissions := b } : ProfileStore).scored scorer := by
    simp only [scored, h]
  simp only [onA, onB, recalculate_eq, hscored]
  rcases outcome store.faults _ store.stored with fault | ⟨snapshot, saves⟩
  · exact ⟨rfl, rfl⟩
  · cases saves <;> exact ⟨rfl, rfl⟩

end ProfileStore

/-- Two lists have the same members exactly if one comes out of the other by reordering submissions
and repeating them or leaving out repetitions.  Then their tallies are equal, and a recalculation
comes to the same snapshot or the same fault and does the same to the store, whatever the scorer and
the store are. -/
theorem points_eq_of_same_submissions {a b : List Submission} (h : ∀ s, s ∈ a ↔ s ∈ b) :
    Tally.ofSubmissions a = Tally.ofSubmissions b ∧
    ∀ (scorer : Scorer) (store : ProfileStore),
      let onA := ({ store with submissions := a }).recalculate scorer
      let onB := ({ store with submissions := b }).recalculate scorer
      onA.1 = onB.1 ∧ onA.2 = { onB.2 with submissions := a } := by
  have htally := Tally.ofSubmissions_eq h
  refine ⟨htally, fun scorer store => ?_⟩
  exact store.recalculate_of_ofSubmissions_eq htally scorer

/-- A submission without a number as its score, one with an infinite score and one with a negative
zero, in another order and with one of them repeated. -/
theorem points_eq_of_same_submissions_repeated :
    let spoiled : Submission := ⟨1, some .nan, true, .one, .one⟩
    let unbounded : Submission := ⟨2, some (.infinity false), false, .zero, .one⟩
    let level : Submission := ⟨1, some .negativeZero, false, .one, .one⟩
    let a := [spoiled, unbounded, level]
    let b := [level, unbounded, spoiled, unbounded]
    (∀ s, s ∈ a ↔ s ∈ b) ∧
    Tally.ofSubmissions a = Tally.ofSubmissions b ∧
    ∀ (scorer : Scorer) (store : ProfileStore),
      let onA := ({ store with submissions := a }).recalculate scorer
      let onB := ({ store with submissions := b }).recalculate scorer
      onA.1 = onB.1 ∧ onA.2 = { onB.2 with submissions := a } := by
  intro spoiled unbounded level a b
  have hmem : ∀ s, s ∈ a ↔ s ∈ b := by
    intro s
    simp only [a, b, List.mem_cons, List.not_mem_nil, or_false]
    tauto
  exact ⟨hmem, points_eq_of_same_submissions hmem⟩

end Contestant
