import Contestant.Proofs.Profile.Run
import Contestant.Proofs.Scoring.MoreSubmissions
import Contestant.Settings.Settings

/-!
Recalculating points that have not changed.

Once a recalculation has succeeded, the stored snapshot is its answer or agrees with it, and it
stays so while accesses fail and recover and further recalculations run: `Settled`.  A snapshot
agrees with itself unless one of its fields is a not-a-number.  The total never is one, for it sums
numbers from zero upwards.  The performance points are one if the bonus is, or if the weighted sum
has overflowed and the bonus is the negative infinity.  Then every further recalculation writes the
snapshot again, and otherwise none does.
-/

namespace Contestant

open Binary64 (zero)

/-! ## Snapshots that agree with themselves -/

section

variable {scorer : Scorer} {tally : Tally} {s : Snapshot}

theorem Snapshot.agrees_self (htotal : s.totalPoints.isNaN = false)
    (hpoints : s.performancePoints.isNaN = false) : s.Agrees s where
  totalPoints := by rw [Binary64.numericallyEqual_self, htotal, Bool.not_false]
  solved := rfl
  performancePoints := by rw [Binary64.numericallyEqual_self, hpoints, Bool.not_false]

theorem Snapshot.differsFrom_of_isNaN (h : s.performancePoints.isNaN = true) (t : Snapshot) :
    s.differsFrom t = true := by
  rw [differsFrom, Binary64.numericallyEqual_of_isNaN h, Bool.not_false, Bool.or_true]

theorem Snapshot.not_agrees_of_isNaN (h : s.performancePoints.isNaN = true) (t : Snapshot) :
    ¬ s.Agrees t := by
  rw [← differsFrom_eq_false_iff, differsFrom_of_isNaN h]
  exact Bool.noConfusion

theorem Scorer.isNaN_totalPoints (h : scorer.computeTally tally = .ok s) :
    s.totalPoints.isNaN = false := by
  obtain ⟨hscores, rfl⟩ := computeTally_eq_ok_iff.mp h
  exact Binary64.isNaN_right_of_le (Scoring.zero_le_total hscores)

/-- The weighted sum is a number from zero upwards, so the bonus alone can spoil the points. -/
theorem Scorer.isNaN_performancePoints_iff (h : scorer.computeTally tally = .ok s) :
    s.performancePoints.isNaN = true ↔
      (scorer.bonus.points s.solved).isNaN = true ∨
      (Scoring.weighted scorer.table.factors tally.results).isInfinite = true ∧
        scorer.bonus.points s.solved = .infinity true := by
  obtain ⟨hscores, rfl⟩ := computeTally_eq_ok_iff.mp h
  have hzero : zero ≤ Scoring.weighted scorer.table.factors tally.results :=
    Scoring.zero_le_weighted_results (fun _ hf => scorer.table.isFactor_of_mem hf) hscores
  have hnan := Binary64.isNaN_right_of_le hzero
  simp only [Binary64.isNaN_add_iff, hnan, Bool.false_eq_true, false_or, Binary64.eq_infinity_iff]
  -- An infinite weighted sum has no sign, so the signs differ if the bonus has one.
  refine or_congr_right (and_congr_right fun hinfinite => and_congr_right fun _ => ?_)
  rw [Binary64.sign_of_zero_le_of_isInfinite hzero hinfinite, ne_comm, ne_eq, Bool.not_eq_false]

end

/-! ## Settings -/

theorem Settings.exists_scorer (settings : Settings) (hentries : settings.decayEntries = 1)
    (hratio : (settings.decayRatio.isPositive && settings.decayRatio.atMost .one) = true) :
    ∃ scorer, settings.scorer = .ok scorer := by
  rw [Settings.scorer, hentries, DecayTable.geometric_one hratio]
  exact ⟨_, rfl⟩

theorem Settings.bonus_eq {settings : Settings} {scorer : Scorer}
    (h : settings.scorer = .ok scorer) :
    scorer.bonus = .saturating settings.bonusMax settings.bonusBase := by
  rw [Settings.scorer] at h
  cases htable : DecayTable.geometric settings.decayRatio settings.decayEntries with
  | error fault =>
    rw [htable] at h
    cases h
  | ok table =>
    rw [htable] at h
    cases h
    rfl

/-! ## Repeated recalculations -/

namespace ProfileStore

/-- Steps of a run that do not change the submissions or the stored snapshot but by recalculating
the points with the same scorer. -/
def Action.repeats (scorer : Scorer) : Action → Prop
  | .event (.outage _) | .event (.fail _ _) | .event (.recover _) => True
  | .event (.submit _) | .event .clear | .event (.overwrite _) => False
  | .recalculate other => other = scorer

theorem exists_scored (store : ProfileStore) (scorer : Scorer)
    (h : ∀ submission ∈ store.submissions, submission.score ≠ some (.infinity false)) :
    ∃ s, store.scored scorer = .ok s :=
  ⟨_, scored_eq_ok_iff.mpr
    (Scorer.computeTally_eq_ok_iff.mpr ⟨Tally.isScore_of_no_infinity h, rfl⟩)⟩

/-- The submissions amount to a snapshot, which is the stored one or agrees with it. -/
structure Settled (store : ProfileStore) (scorer : Scorer) (s : Snapshot) : Prop where
  scored : store.scored scorer = .ok s
  stored : s.Agrees store.stored ∨ store.stored = s

variable {store : ProfileStore} {scorer : Scorer} {s : Snapshot} {action : Action}
  {actions : List Action}

theorem settled_of_recalculate (h : (store.recalculate scorer).1 = .ok s) :
    Settled (store.recalculate scorer).2 scorer s := by
  obtain ⟨hscored, ⟨hagrees, hafter⟩ | ⟨-, hafter⟩⟩ := recalculate_ok h <;> rw [hafter]
  · exact ⟨hscored, .inl hagrees⟩
  · exact ⟨hscored, .inr rfl⟩

theorem Settled.recalculate (h : Settled store scorer s) :
    Settled (store.recalculate scorer).2 scorer s := by
  rcases store.recalculate_cases scorer with
    ⟨fault, -, heq⟩ | ⟨s', hscored, ⟨-, heq⟩ | ⟨-, heq⟩⟩ <;> rw [heq]
  · exact h
  · exact h
  · rw [h.scored] at hscored
    cases hscored
    exact ⟨h.scored, .inr rfl⟩

theorem Settled.next (h : Settled store scorer s) (hrepeats : action.repeats scorer) :
    Settled (store.next action) scorer s := by
  cases action with
  | event event =>
    cases event with
    | submit | clear | overwrite => cases hrepeats
    | outage | fail | recover => exact ⟨h.scored, h.stored⟩
  | recalculate other =>
    cases hrepeats
    exact h.recalculate

theorem Settled.exec (h : Settled store scorer s) (hrepeats : ∀ a ∈ actions, a.repeats scorer) :
    Settled (store.exec actions) scorer s := by
  induction actions generalizing store with
  | nil => exact h
  | cons action rest ih =>
    obtain ⟨haction, hrest⟩ := List.forall_mem_cons.mp hrepeats
    exact ih (h.next haction) hrest

theorem Settled.agrees (h : Settled store scorer s) (hpoints : s.performancePoints.isNaN = false) :
    s.Agrees store.stored := by
  rcases h.stored with hagrees | heq
  · exact hagrees
  · -- What was saved is compared with itself.
    rw [heq]
    exact Snapshot.agrees_self (Scorer.isNaN_totalPoints (scored_eq_ok_iff.mp h.scored)) hpoints

/-- Unless the points are a not-a-number, a repeating step writes nothing. -/
theorem Settled.next_keeps (h : Settled store scorer s)
    (hpoints : s.performancePoints.isNaN = false) (hrepeats : action.repeats scorer) :
    (store.next action).stored = store.stored ∧ (store.next action).writes = store.writes := by
  cases action with
  | event event =>
    cases event with
    | submit | clear | overwrite => cases hrepeats
    | outage | fail | recover => exact ⟨rfl, rfl⟩
  | recalculate other =>
    cases hrepeats
    have hkeeps : store.next (.recalculate scorer) = store := by
      rw [ProfileStore.next]
      rcases store.recalculate_cases scorer with
        ⟨fault, -, heq⟩ | ⟨s', hscored, ⟨-, heq⟩ | ⟨hdiffers, heq⟩⟩ <;> rw [heq]
      -- It would save only what the stored snapshot does not agree with.
      rw [h.scored] at hscored
      cases hscored
      exact absurd (h.agrees hpoints) hdiffers
    rw [hkeeps]
    exact ⟨rfl, rfl⟩

theorem Settled.exec_keeps (h : Settled store scorer s)
    (hpoints : s.performancePoints.isNaN = false) (hrepeats : ∀ a ∈ actions, a.repeats scorer) :
    (store.exec actions).stored = store.stored ∧ (store.exec actions).writes = store.writes := by
  induction actions generalizing store with
  | nil => exact ⟨rfl, rfl⟩
  | cons action rest ih =>
    obtain ⟨haction, hrest⟩ := List.forall_mem_cons.mp hrepeats
    obtain ⟨hstored, hwrites⟩ := h.next_keeps hpoints haction
    obtain ⟨hstored', hwrites'⟩ := ih (h.next haction) hrest
    exact ⟨hstored'.trans hstored, hwrites'.trans hwrites⟩

theorem Settled.recalculate_of_number (h : Settled store scorer s)
    (hpoints : s.performancePoints.isNaN = false) (hsubmissions : store.faults .submissions = none)
    (hread : store.faults .read = none) : store.recalculate scorer = (.ok s, store) :=
  recalculate_of_agrees hsubmissions hread h.scored (h.agrees hpoints)

/-- Points that are a not-a-number differ from themselves, so what is stored is stored again. -/
theorem Settled.recalculate_of_isNaN (h : Settled store scorer s)
    (hpoints : s.performancePoints.isNaN = true) (hfaults : ∀ access, store.faults access = none) :
    store.recalculate scorer = (.ok s, { store with writes := store.writes + 1 }) := by
  have hstored := h.stored.resolve_left (Snapshot.not_agrees_of_isNaN hpoints _)
  have hdiffers := Snapshot.differsFrom_of_isNaN hpoints store.stored
  rw [recalculate_of_differs (hfaults _) (hfaults _) (hfaults _) h.scored hdiffers, save, ← hstored]

/-- After a recalculation that has succeeded, and whatever fails and recovers and is recalculated
with the same scorer from then on, the same points come out.  They are not written again, and the
access that writes may be down, unless the performance points are a not-a-number; then every
recalculation writes them again.  They are one exactly if the bonus is, or if the bonus is the
negative infinity and the weighted sum has overflowed. -/
theorem unchanged_points_rewritten_iff {settings : Settings} {scorer : Scorer}
    (hscorer : settings.scorer = .ok scorer) {store : ProfileStore} {s : Snapshot}
    (hfirst : (store.recalculate scorer).1 = .ok s) {between : List Action}
    (hbetween : ∀ a ∈ between, a.repeats scorer) :
    let once := (store.recalculate scorer).2
    let later := once.exec between
    let bonus := (Bonus.saturating settings.bonusMax settings.bonusBase).points s.solved
    let weighted :=
      Scoring.weighted scorer.table.factors (Tally.ofSubmissions store.submissions).results
    (s.performancePoints.isNaN = false →
      later.stored = once.stored ∧ later.writes = once.writes ∧
      (later.faults .submissions = none → later.faults .read = none →
        later.recalculate scorer = (.ok s, later))) ∧
    (s.performancePoints.isNaN = true → (∀ access, later.faults access = none) →
      later.recalculate scorer = (.ok s, { later with writes := later.writes + 1 })) ∧
    (s.performancePoints.isNaN = true ↔
      bonus.isNaN = true ∨ weighted.isInfinite = true ∧ bonus = .infinity true) := by
  intro once later bonus weighted
  have honce : Settled once scorer s := settled_of_recalculate hfirst
  have hlater : Settled later scorer s := honce.exec hbetween
  refine ⟨fun hpoints => ?_, hlater.recalculate_of_isNaN, ?_⟩
  · obtain ⟨hstored, hwrites⟩ := honce.exec_keeps hpoints hbetween
    exact ⟨hstored, hwrites, hlater.recalculate_of_number hpoints⟩
  · have hscored := scored_eq_ok_iff.mp honce.scored
    rw [submissions_recalculate] at hscored
    rw [Scorer.isNaN_performancePoints_iff hscored, Settings.bonus_eq hscorer]

/-- Nothing can be written any more. -/
theorem unchanged_points_rewritten_iff_write_down :
    let settings : Settings := { Settings.standard "" "" with decayEntries := 1 }
    let store : ProfileStore := { submissions := [⟨1, some .one, true, .one, .one⟩] }
    let between : List Action := [.event (.outage (some .write))]
    ∃ scorer s, settings.scorer = .ok scorer ∧ (store.recalculate scorer).1 = .ok s ∧
      (∀ a ∈ between, a.repeats scorer) ∧
      let once := (store.recalculate scorer).2
      let later := once.exec between
      let bonus := (Bonus.saturating settings.bonusMax settings.bonusBase).points s.solved
      let weighted :=
        Scoring.weighted scorer.table.factors (Tally.ofSubmissions store.submissions).results
      (s.performancePoints.isNaN = false →
        later.stored = once.stored ∧ later.writes = once.writes ∧
        (later.faults .submissions = none → later.faults .read = none →
          later.recalculate scorer = (.ok s, later))) ∧
      (s.performancePoints.isNaN = true → (∀ access, later.faults access = none) →
        later.recalculate scorer = (.ok s, { later with writes := later.writes + 1 })) ∧
      (s.performancePoints.isNaN = true ↔
        bonus.isNaN = true ∨ weighted.isInfinite = true ∧ bonus = .infinity true) := by
  intro settings store between
  obtain ⟨scorer, hscorer⟩ := settings.exists_scorer rfl (by decide +kernel)
  obtain ⟨s, hscored⟩ := store.exists_scored scorer (by decide)
  have hfirst := fst_recalculate_of_scored (fun _ => rfl) hscored
  have hbetween : ∀ a ∈ between, a.repeats scorer :=
    List.forall_mem_singleton.mpr trivial
  exact ⟨scorer, s, hscorer, hfirst, hbetween,
    unchanged_points_rewritten_iff hscorer hfirst hbetween⟩

/-- The largest bonus is zero and its base is a large power of two.  With two solved problems the
base overflows, and zero times an infinity is a not-a-number. -/
theorem unchanged_points_may_be_rewritten :
    let settings : Settings := { Settings.standard "" "" with
      decayEntries := 1, bonusMax := .zero, bonusBase := .ofBody false (1723 * Nat.pow 2 52) }
    let store : ProfileStore :=
      { submissions := [⟨1, some .one, true, .one, .one⟩, ⟨2, some .one, true, .one, .one⟩] }
    ∃ scorer s, settings.scorer = .ok scorer ∧ (store.recalculate scorer).1 = .ok s ∧
      let once := (store.recalculate scorer).2
      let again := once.recalculate scorer
      again.1 = .ok s ∧ again.2.stored = once.stored ∧ once.writes = 1 ∧ again.2.writes = 2 := by
  intro settings store
  obtain ⟨scorer, hscorer⟩ := settings.exists_scorer rfl (by decide +kernel)
  obtain ⟨s, hscored⟩ := store.exists_scored scorer (by decide)
  have htally := scored_eq_ok_iff.mp hscored
  have hsolved : s.solved = 2 := by
    rw [(Scorer.computeTally_eq_ok_iff.mp htally).2, Tally.ofSubmissions, Tally.problems]
    simp only [(List.mergeSort_perm _ _).countP_eq]
    decide
  have hpower : settings.bonusBase.power 2 =
      .one * (settings.bonusBase * settings.bonusBase) := by
    simp [Binary64.power, Binary64.powerLoop]
  have hpoints : s.performancePoints.isNaN = true := by
    rw [Scorer.isNaN_performancePoints_iff htally, Settings.bonus_eq hscorer, hsolved, Bonus.points,
      show (2 : SolvedCount).toInt32.toInt = 2 by decide, hpower]
    exact .inl (by decide +kernel)
  have hfirst : store.recalculate scorer = (.ok s, store.save s) :=
    recalculate_of_differs rfl rfl rfl hscored (Snapshot.differsFrom_of_isNaN hpoints _)
  have honce : Settled (store.save s) scorer s := ⟨hscored, .inr rfl⟩
  refine ⟨scorer, s, hscorer, by rw [hfirst], ?_⟩
  simp only [hfirst, honce.recalculate_of_isNaN hpoints fun _ => rfl, true_and]
  exact ⟨rfl, rfl⟩

end ProfileStore
end Contestant
