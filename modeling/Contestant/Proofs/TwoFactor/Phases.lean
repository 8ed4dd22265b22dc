import Contestant.Proofs.Scratch.StoredText
import Contestant.Proofs.TwoFactor.Confirmation
import Contestant.Proofs.TwoFactor.ReplayFloor

/-!
The two phases of a two-factor credential.

A new account is off and stays so until a confirmation succeeds; then it is on for good.  While it
is off its last timecode is zero, and what it holds is what the latest enrolment has shown, or
nothing: every other call needs the credential on, or switches it on.  From then on no enrolment is
admitted.  A confirmation moves the switch, and nothing else does, so the confirmations of a history
are counted by the switch before it and after it.
-/

namespace Contestant
namespace TwoFactor

open Scratch

/-- What a successful enrolment has shown. -/
def Reply.enrollment? : Reply → Option Enrollment
  | enrolled enrollment => some enrollment
  | _ => none

/-- What the last successful enrolment of a history has shown. -/
def lastEnrollment (history : List Record) : Option Enrollment :=
  (history.filterMap fun r => r.reply.enrollment?).getLast?

/-- The stored key and scratch codes are those that an enrolment has shown, or there are neither. -/
def Credential.Holds (c : Credential) : Option Enrollment → Prop
  | none => c.key = none ∧ c.scratch = none
  | some e => c.key = some e.key ∧
      ∃ codes, c.scratch = some codes.toJson ∧ Codes.parse c.scratch = .ok codes ∧
        codes.texts = e.scratchCodes

def Request.isEnrollment : Request → Bool
  | begin _ _ _ => true
  | _ => false

/-! ## The switch -/

section

variable {policy : Policy} {seen before after : Credential} {request : Request} {reply : Reply}

theorem Success.request_of_off (h : Success policy seen before request reply after)
    (hseen : seen.StaysOn before) (off : before.enabled = false) :
    request.isEnrollment = true ∨ ∃ code now, request = .confirm code now ∧
      reply = .accepted true := by
  cases h with
  | checkCode on | checkScratch on | regenerate on =>
    rw [(hseen on).1] at off
    cases off
  | begin => exact .inl rfl
  | confirm => exact .inr ⟨_, _, rfl, rfl⟩

theorem Success.holds (h : Success policy seen before request reply after)
    (henroll : request.isEnrollment = true) :
    after.enabled = before.enabled ∧ after.lastTimecode = 0 ∧
      ∃ e, reply = .enrolled e ∧ after.Holds (some e) := by
  cases h with
  | checkCode | checkScratch | confirm | regenerate => cases henroll
  | @begin username random draws off =>
    exact ⟨rfl, rfl, _, rfl, rfl, Codes.ofDraws draws, rfl, Codes.parse_toJson _, rfl⟩

theorem Success.enabled_eq_or_confirms (h : Success policy seen before request reply after) :
    after.enabled = before.enabled ∨ ∃ code now, request = .confirm code now ∧
      reply = .accepted true := by
  cases h with
  | confirm => exact .inr ⟨_, _, rfl, rfl⟩
  | checkCode | checkScratch | begin | regenerate => exact .inl rfl

end

namespace Record

theorem confirmed_of_request {r : Record} {code : String} {now : Instant}
    (hrequest : r.request = .confirm code now) (hreply : r.reply = .accepted true) :
    r.confirmed = true := by
  simp only [confirmed, hrequest, hreply, decide_true]

/-- A confirmation that succeeds turns the switch from off to on, and no other call moves it. -/
theorem confirmed_balance (r : Record) :
    r.confirmed.toNat + r.before.enabled.toNat = r.after.enabled.toNat := by
  cases hconfirmed : r.confirmed with
  | true =>
    obtain ⟨off, hafter⟩ := switches_on hconfirmed
    rw [off, hafter]
    rfl
  | false =>
    rw [Bool.toNat_false, Nat.zero_add]
    rcases r.success_or_unchanged with h | ⟨-, hafter⟩
    · rcases h.enabled_eq_or_confirms with henabled | ⟨code, now, hrequest, hreply⟩
      · rw [henabled]
      · rw [confirmed_of_request hrequest hreply] at hconfirmed
        cases hconfirmed
    · rw [hafter]

/-- While the credential is off, a call that succeeds is an enrolment, or it confirms one. -/
theorem isEnrollment_of_off {r : Record} (hs : r.succeeded = true)
    (hseen : r.seen.StaysOn r.before) (off : r.before.enabled = false)
    (hconfirmed : r.confirmed = false) : r.request.isEnrollment = true := by
  rcases (success_of_succeeded hs).request_of_off hseen off with h | ⟨code, now, hrequest, hreply⟩
  · exact h
  · rw [confirmed_of_request hrequest hreply] at hconfirmed
    cases hconfirmed

/-- Once the credential is on, an enrolment is refused and changes nothing. -/
theorem refused_of_on {r : Record} (henroll : r.request.isEnrollment = true)
    (on : r.before.enabled = true) : r.reply = .refused .alreadyEnabled ∧ r.after = r.before := by
  cases hrequest : r.request with
  | checkCode | checkScratch | confirm | regenerate =>
    rw [hrequest] at henroll
    cases henroll
  | begin username random draws =>
    have hdecision : r.decision = .attempt
        (.enroll (OneTime.freshKey random) (Codes.ofDraws draws).toJson)
        (.enrolled (Request.enrollment r.policy username random draws))
        (.refused .alreadyEnabled) := by
      rw [decision, hrequest]
      rfl
    refine served_of_not_admits hdecision ?_
    rw [Write.admits, on]
    rfl

end Record

/-! ## A run -/

section

variable {history : List Record} {first last : Credential}

theorem lastEnrollment_cons (r : Record) (rest : List Record) :
    lastEnrollment (r :: rest) = (lastEnrollment rest).or r.reply.enrollment? := by
  simp only [lastEnrollment, List.filterMap_cons]
  cases r.reply.enrollment? with
  | none => simp only [Option.or_none]
  | some e =>
    simp only [List.getLast?_cons]
    cases (rest.filterMap fun r => r.reply.enrollment?).getLast? <;> rfl

/-- The confirmations of a history are what the switch has moved by. -/
theorem Linked.confirmed_balance (h : Linked first history last) :
    history.countP Record.confirmed + first.enabled.toNat = last.enabled.toNat := by
  induction history generalizing first with
  | nil =>
    rw [show last = first from h]
    exact Nat.zero_add _
  | cons r rest ih =>
    obtain ⟨rfl, hrest⟩ := h
    have hone := r.confirmed_balance
    have hall := ih hrest
    rw [List.countP_cons]
    cases hconfirmed : r.confirmed with
    | true =>
      rw [hconfirmed, Bool.toNat_true] at hone
      simp only [if_true]
      omega
    | false =>
      rw [hconfirmed, Bool.toNat_false] at hone
      simp only [Bool.false_eq_true, if_false]
      omega

/-- The phase before a confirmation: the credential is off at timecode zero, and it holds what an
enrolment has shown. -/
structure Credential.Pending (c : Credential) (shown : Option Enrollment) : Prop where
  off : c.enabled = false
  floor : c.lastTimecode = 0
  holds : c.Holds shown

theorem Credential.fresh_pending : Credential.fresh.Pending none := ⟨rfl, rfl, rfl, rfl⟩

theorem Record.pending {r : Record} {shown : Option Enrollment}
    (hseen : r.seen.StaysOn r.before) (hconfirmed : r.confirmed = false)
    (h : r.before.Pending shown) : r.after.Pending (r.reply.enrollment?.or shown) := by
  cases hs : r.succeeded with
  | true =>
    have henroll := isEnrollment_of_off hs hseen h.off hconfirmed
    obtain ⟨henabled, hfloor, e, hreply, hholds⟩ := (success_of_succeeded hs).holds henroll
    rw [hreply]
    exact ⟨henabled.trans h.off, hfloor, hholds⟩
  | false =>
    have hnone : r.reply.enrollment? = none := by
      rw [succeeded] at hs
      generalize r.reply = reply at hs
      cases reply with
      | enrolled => cases hs
      | accepted | issued | refused => rfl
    rw [hnone, after_of_not_succeeded hs]
    exact h

theorem Linked.pending (h : Linked first history last)
    (hseen : ∀ r ∈ history, r.seen.StaysOn r.before)
    (hconfirmed : ∀ r ∈ history, r.confirmed = false) {shown : Option Enrollment}
    (hfirst : first.Pending shown) :
    last.Pending ((lastEnrollment history).or shown) ∧
      ∀ r ∈ history, r.succeeded = true → r.request.isEnrollment = true := by
  induction history generalizing first shown with
  | nil =>
    rw [show last = first from h]
    exact ⟨hfirst, fun r hr => absurd hr List.not_mem_nil⟩
  | cons r rest ih =>
    obtain ⟨rfl, hrest⟩ := h
    obtain ⟨hseen, hseens⟩ := List.forall_mem_cons.mp hseen
    obtain ⟨hone, hall⟩ := List.forall_mem_cons.mp hconfirmed
    obtain ⟨hpending, henroll⟩ := ih hrest hseens hall (Record.pending hseen hone hfirst)
    rw [lastEnrollment_cons, Option.or_assoc]
    refine ⟨hpending, List.forall_mem_cons.mpr ⟨fun hs => ?_, henroll⟩⟩
    exact Record.isEnrollment_of_off hs hseen hfirst.off hone

theorem Linked.on_of_mem (h : Linked first history last) (on : first.enabled = true) {r : Record}
    (hr : r ∈ history) : r.before.enabled = true := by
  obtain ⟨earlier, later, rfl⟩ := List.append_of_mem hr
  obtain ⟨middle, hearlier, hbefore, -⟩ := linked_append.mp h
  have hstays := hearlier.rel (R := Credential.StaysOn) .refl .trans fun r _ => r.staysOn
  rw [hbefore]
  exact (hstays on).1

theorem Linked.one_le_lastTimecode (h : Linked first history last)
    (hmoves : ∀ r ∈ history, r.MovesFloor) (hfirst : first.lastTimecode = 0) {r : Record}
    (hr : r ∈ history) (hconfirmed : r.confirmed = true) : 1 ≤ last.lastTimecode := by
  have hcode := Record.codeAccepted_of_confirmed hconfirmed
  obtain ⟨timecode, haccepted, -⟩ := Record.exists_acceptedTimecode hcode
  have hmem : timecode ∈ acceptedTimecodes history := List.mem_filterMap.mpr ⟨r, hr, haccepted⟩
  have hlast : last.lastTimecode ∈ acceptedTimecodes history := by
    rw [h.floor_eq hmoves, List.getLastD_eq_getLast?,
      List.getLast?_eq_some_getLast (List.ne_nil_of_mem hmem)]
    exact List.getLast_mem _
  have hlt := h.floor_lt_accepted hmoves last.lastTimecode hlast
  rw [hfirst] at hlt
  exact hlt

end

/-- The life of a credential from a new account on, whatever calls are made and however they
interleave.  At most one confirmation succeeds.  As long as none has, enrolments are the only calls
that succeed, the last timecode is zero, and the credential holds what the latest enrolment has
shown.  Once one has, the credential is on for good with the same key and a last timecode of at
least one, and enrolments are refused without effect. -/
theorem enrollment_lifecycle (steps : List Step) :
    let run := World.idle Credential.fresh
    let history := run.history steps
    let live := (run.exec steps).live
    history.countP Record.confirmed ≤ 1 ∧
    ((∀ r ∈ history, r.confirmed = false) →
      (∀ r ∈ history, r.succeeded = true → r.request.isEnrollment = true) ∧
      live.enabled = false ∧ live.lastTimecode = 0 ∧ live.Holds (lastEnrollment history)) ∧
    ((∃ r ∈ history, r.confirmed = true) → ∀ more,
      let later := ((run.exec steps).exec more).live
      later.enabled = true ∧ later.key = live.key ∧ 1 ≤ later.lastTimecode ∧
      ∀ r ∈ (run.exec steps).history more, r.confirmed = false ∧
        (r.request.isEnrollment = true →
          r.reply = .refused .alreadyEnabled ∧ r.after = r.before)) := by
  intro run history live
  have hlinked : Linked Credential.fresh history live := history_linked run steps
  have hbalance := hlinked.confirmed_balance
  rw [show Credential.fresh.enabled.toNat = 0 from rfl, Nat.add_zero] at hbalance
  refine ⟨hbalance ▸ Bool.toNat_le live.enabled, fun hnone => ?_, ?_⟩
  · obtain ⟨hpending, henroll⟩ := hlinked.pending (fun _ hr => seen_staysOn_before hr) hnone
      Credential.fresh_pending
    rw [Option.or_none] at hpending
    exact ⟨henroll, hpending.off, hpending.floor, hpending.holds⟩
  · rintro ⟨r, hr, hconfirmed⟩ more later
    have on : live.enabled = true := by
      rw [← Bool.toNat_eq_one, ← hbalance]
      have hle := Bool.toNat_le live.enabled
      have hpos : 0 < history.countP Record.confirmed := List.countP_pos_iff.mpr ⟨r, hr, hconfirmed⟩
      omega
    have hstays : live.StaysOn later := World.staysOn (run.exec steps) more
    have hfloor := hlinked.one_le_lastTimecode
      (history_movesFloor Credential.fresh_floorAtZero steps) rfl hr hconfirmed
    have hgrows := World.floor_le_exec_append Credential.fresh_floorAtZero steps more
    rw [World.exec_append] at hgrows
    refine ⟨(hstays on).1, (hstays on).2, Int64.le_trans hfloor hgrows, fun r' hr' => ?_⟩
    have on' : r'.before.enabled = true := (history_linked (run.exec steps) more).on_of_mem on hr'
    refine ⟨?_, fun henroll => Record.refused_of_on henroll on'⟩
    cases hconfirmed' : r'.confirmed with
    | false => rfl
    | true =>
      rw [(Record.switches_on hconfirmed').1] at on'
      cases on'

end TwoFactor
end Contestant
