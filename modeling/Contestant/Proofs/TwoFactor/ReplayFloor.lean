import Contestant.Proofs.TwoFactor.Lifecycle

/-!
No timecode is accepted twice, in whatever order the calls on a new account read and write.

The last timecode is the replay floor: a call is accepted only at a timecode above the floor that
it has seen, and only if the floor is still there.  What could lower it is an enrolment, which
starts the timecodes over.  It is admitted only while the credential is off, and until then nothing
has been accepted, so the floor is at zero already.  `Credential.FloorAtZero` carries this through a
run; it needs that a call which has seen the credential on finds it on.
-/

namespace Contestant
namespace TwoFactor

/-- As long as the credential is off, its last timecode is zero. -/
def Credential.FloorAtZero (c : Credential) : Prop := c.enabled = false → c.lastTimecode = 0

theorem Credential.fresh_floorAtZero : Credential.fresh.FloorAtZero := fun _ => rfl

/-! ## One call -/

variable {policy : Policy} {seen before after : Credential} {request : Request} {reply : Reply}

theorem Success.floorAtZero (h : Success policy seen before request reply after)
    (hseen : seen.StaysOn before) (hbefore : before.FloorAtZero) : after.FloorAtZero := by
  intro off
  cases h with
  | checkCode on =>
    rw [(hseen on).1] at off
    cases off
  | checkScratch | regenerate => exact hbefore off
  | begin => rfl
  | confirm => cases off

theorem Success.floor_eq (h : Success policy seen before request reply after)
    (hcode : (request.presented.isSome && reply = .accepted true) = false)
    (hbefore : before.FloorAtZero) : after.lastTimecode = before.lastTimecode := by
  cases h with
  | checkCode | confirm => simp [Request.presented] at hcode
  | checkScratch | regenerate => rfl
  | begin off => exact (hbefore off).symm

namespace Record

/-- The floor moves by an accepted one-time code and by nothing else, and it moves up from where
the call has seen it. -/
structure MovesFloor (r : Record) : Prop where
  floor_eq : r.after.lastTimecode = r.acceptedTimecode.getD r.before.lastTimecode
  seen_eq : r.codeAccepted = true → r.seen.lastTimecode = r.before.lastTimecode
  later : ∀ timecode ∈ r.acceptedTimecode, r.before.lastTimecode < timecode

theorem movesFloor {r : Record} (hbefore : r.before.FloorAtZero) : r.MovesFloor := by
  cases hcode : r.codeAccepted with
  | true =>
    obtain ⟨timecode, haccepted, hkept, hlater, hafter⟩ := exists_acceptedTimecode hcode
    refine ⟨?_, fun _ => hkept.symm, fun t ht => ?_⟩
    · rw [haccepted, hafter]
      rfl
    · rw [haccepted] at ht
      cases ht
      exact hlater
  | false =>
    have hnone := acceptedTimecode_of_not_codeAccepted hcode
    refine ⟨?_, fun h => ?_, fun t ht => ?_⟩
    · rw [hnone]
      rcases r.success_or_unchanged with h | ⟨-, hafter⟩
      · exact h.floor_eq hcode hbefore
      · exact congrArg Credential.lastTimecode hafter
    · rw [hcode] at h
      cases h
    · rw [hnone] at ht
      cases ht

theorem floorAtZero {r : Record} (hseen : r.seen.StaysOn r.before)
    (hbefore : r.before.FloorAtZero) : r.after.FloorAtZero := by
  rcases r.success_or_unchanged with h | ⟨-, hafter⟩
  · exact h.floorAtZero hseen hbefore
  · rw [hafter]
    exact hbefore

end Record

/-! ## A run -/

theorem Linked.movesFloor {history : List Record} {first last : Credential}
    (h : Linked first history last) (hseen : ∀ r ∈ history, r.seen.StaysOn r.before)
    (hfirst : first.FloorAtZero) : ∀ r ∈ history, r.MovesFloor := by
  induction history generalizing first with
  | nil => exact fun r hr => absurd hr List.not_mem_nil
  | cons r rest ih =>
    obtain ⟨rfl, hrest⟩ := h
    obtain ⟨hseen, hseens⟩ := List.forall_mem_cons.mp hseen
    have hafter := Record.floorAtZero hseen hfirst
    exact List.forall_mem_cons.mpr ⟨Record.movesFloor hfirst, ih hrest hseens hafter⟩

theorem history_movesFloor {start : Credential} (hstart : start.FloorAtZero) (steps : List Step) :
    ∀ r ∈ (World.idle start).history steps, r.MovesFloor :=
  (history_linked _ steps).movesFloor (fun _ hr => seen_staysOn_before hr) hstart

/-- The timecodes at which one-time codes have been accepted, in the order of the writes. -/
def acceptedTimecodes (history : List Record) : List OneTime.Timecode :=
  history.filterMap Record.acceptedTimecode

section

variable {history : List Record} {first last : Credential}

theorem Record.MovesFloor.floor_le {r : Record} (h : r.MovesFloor) :
    r.before.lastTimecode ≤ r.after.lastTimecode := by
  rw [h.floor_eq]
  cases haccepted : r.acceptedTimecode with
  | none => exact Int64.le_rfl
  | some timecode => exact Int64.le_of_lt (h.later timecode haccepted)

theorem Linked.floor_le (h : Linked first history last)
    (hmoves : ∀ r ∈ history, r.MovesFloor) : first.lastTimecode ≤ last.lastTimecode :=
  h.rel (R := fun a b => a.lastTimecode ≤ b.lastTimecode) (fun _ => Int64.le_rfl) Int64.le_trans
    fun r hr => (hmoves r hr).floor_le

theorem Linked.floor_eq (h : Linked first history last)
    (hmoves : ∀ r ∈ history, r.MovesFloor) :
    last.lastTimecode = (acceptedTimecodes history).getLastD first.lastTimecode := by
  induction history generalizing first with
  | nil =>
    rw [show last = first from h]
    rfl
  | cons r rest ih =>
    obtain ⟨rfl, hrest⟩ := h
    obtain ⟨hmove, hmoves⟩ := List.forall_mem_cons.mp hmoves
    rw [ih hrest hmoves, hmove.floor_eq]
    cases haccepted : r.acceptedTimecode with
    | none => simp only [acceptedTimecodes, List.filterMap_cons, haccepted, Option.getD_none]
    | some timecode =>
      simp only [acceptedTimecodes, List.filterMap_cons, haccepted, Option.getD_some,
        List.getLastD_cons]

theorem Linked.floor_le_seen (h : Linked first history last)
    (hmoves : ∀ r ∈ history, r.MovesFloor) :
    ∀ r ∈ history, r.codeAccepted = true → first.lastTimecode ≤ r.seen.lastTimecode := by
  induction history generalizing first with
  | nil => exact fun r hr => absurd hr List.not_mem_nil
  | cons r rest ih =>
    obtain ⟨rfl, hrest⟩ := h
    obtain ⟨hmove, hmoves⟩ := List.forall_mem_cons.mp hmoves
    refine List.forall_mem_cons.mpr ⟨fun hcode => ?_, fun r' hr' hcode => ?_⟩
    · rw [hmove.seen_eq hcode]
      exact Int64.le_rfl
    · exact Int64.le_trans hmove.floor_le (ih hrest hmoves r' hr' hcode)

theorem Record.MovesFloor.seen_lt_after {r : Record} (h : r.MovesFloor)
    (hcode : r.codeAccepted = true) : r.seen.lastTimecode < r.after.lastTimecode := by
  obtain ⟨timecode, haccepted, hkept, hlater, hafter⟩ := exists_acceptedTimecode hcode
  rw [h.seen_eq hcode, hafter]
  exact hlater

theorem Linked.floor_lt_accepted (h : Linked first history last)
    (hmoves : ∀ r ∈ history, r.MovesFloor) :
    ∀ timecode ∈ acceptedTimecodes history, first.lastTimecode < timecode := by
  intro timecode htimecode
  obtain ⟨r, hr, haccepted⟩ := List.mem_filterMap.mp htimecode
  have hcode := Record.codeAccepted_of_acceptedTimecode haccepted
  have hle := h.floor_le_seen hmoves r hr hcode
  rw [(hmoves r hr).seen_eq hcode] at hle
  exact Int64.lt_of_le_of_lt hle ((hmoves r hr).later timecode haccepted)

theorem Linked.accepted_pairwise (h : Linked first history last)
    (hmoves : ∀ r ∈ history, r.MovesFloor) : (acceptedTimecodes history).Pairwise (· < ·) := by
  induction history generalizing first with
  | nil => exact List.Pairwise.nil
  | cons r rest ih =>
    obtain ⟨rfl, hrest⟩ := h
    obtain ⟨hmove, hmoves⟩ := List.forall_mem_cons.mp hmoves
    cases haccepted : r.acceptedTimecode with
    | none =>
      simp only [acceptedTimecodes, List.filterMap_cons, haccepted]
      exact ih hrest hmoves
    | some timecode =>
      simp only [acceptedTimecodes, List.filterMap_cons, haccepted, List.pairwise_cons]
      refine ⟨fun t ht => ?_, ih hrest hmoves⟩
      have hlt := hrest.floor_lt_accepted hmoves t ht
      rw [hmove.floor_eq, haccepted] at hlt
      exact hlt

theorem Linked.seen_pairwise (h : Linked first history last)
    (hmoves : ∀ r ∈ history, r.MovesFloor) :
    history.Pairwise fun a b => a.codeAccepted = true → b.codeAccepted = true →
      a.seen.lastTimecode < b.seen.lastTimecode := by
  induction history generalizing first with
  | nil => exact List.Pairwise.nil
  | cons r rest ih =>
    obtain ⟨rfl, hrest⟩ := h
    obtain ⟨hmove, hmoves⟩ := List.forall_mem_cons.mp hmoves
    refine List.pairwise_cons.mpr ⟨fun r' hr' hcode hcode' => ?_, ih hrest hmoves⟩
    exact Int64.lt_of_lt_of_le (hmove.seen_lt_after hcode)
      (hrest.floor_le_seen hmoves r' hr' hcode')

end

theorem World.floor_le_exec_append {start : Credential} (hstart : start.FloorAtZero)
    (steps more : List Step) :
    ((World.idle start).exec steps).live.lastTimecode ≤
      ((World.idle start).exec (steps ++ more)).live.lastTimecode := by
  have hlinked := history_linked ((World.idle start).exec steps) more
  rw [← World.exec_append] at hlinked
  refine hlinked.floor_le fun r hr => history_movesFloor hstart (steps ++ more) r ?_
  rw [World.history_append]
  exact List.mem_append_right _ hr

/-- On a new account, whatever calls are made and however their reads and writes interleave: the
last timecode never goes down, one-time codes are accepted at strictly increasing timecodes, the
last timecode is the one accepted last, and of the calls that have seen the same last timecode at
most one is accepted. -/
theorem accepted_timecodes_increase (steps : List Step) :
    let run := World.idle Credential.fresh
    let history := run.history steps
    (∀ more, (run.exec steps).live.lastTimecode ≤ (run.exec (steps ++ more)).live.lastTimecode) ∧
    (∀ r ∈ history, r.codeAccepted = true →
      ∃ timecode, r.acceptedTimecode = some timecode ∧ r.after.lastTimecode = timecode) ∧
    (acceptedTimecodes history).Pairwise (· < ·) ∧
    (run.exec steps).live.lastTimecode = (acceptedTimecodes history).getLastD 0 ∧
    history.Pairwise fun a b =>
      a.codeAccepted = true → b.codeAccepted = true →
        a.seen.lastTimecode ≠ b.seen.lastTimecode := by
  intro run history
  have hmoves : ∀ r ∈ history, r.MovesFloor :=
    history_movesFloor Credential.fresh_floorAtZero steps
  have hlinked : Linked Credential.fresh history (run.exec steps).live := history_linked run steps
  refine ⟨World.floor_le_exec_append Credential.fresh_floorAtZero steps, fun r _ hcode => ?_,
    hlinked.accepted_pairwise hmoves, hlinked.floor_eq hmoves, ?_⟩
  · obtain ⟨timecode, haccepted, -, -, hafter⟩ := Record.exists_acceptedTimecode hcode
    exact ⟨timecode, haccepted, hafter⟩
  · refine (hlinked.seen_pairwise hmoves).imp fun {a b} hlt ha hb heq => ?_
    have hlt' := hlt ha hb
    rw [heq] at hlt'
    exact Int64.lt_irrefl hlt'

end TwoFactor
end Contestant
