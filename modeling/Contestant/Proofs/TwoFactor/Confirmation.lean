import Contestant.Proofs.TwoFactor.Lifecycle

/-!
Which key a confirmation switches on.

A confirmation verifies its code against the key that it has seen and switches on the key that is
stored when it writes.  Its write compares the last timecode alone, and an enrolment leaves that at
zero, where a pending credential has it anyway.  So an enrolment that writes in between goes
unnoticed, and the key that is switched on is the one that it has stored: `confirmed_key_eq_iff`
says that this is the only way in which the two keys come to differ, and
`confirmed_key_may_be_unproved` that it happens.
-/

namespace Contestant
namespace TwoFactor

open OneTime

/-- Whether the call is a confirmation that has switched the credential on. -/
def Record.confirmed (r : Record) : Bool :=
  match r.request with
  | .confirm _ _ => r.reply = .accepted true
  | _ => false

/-- The key that a successful enrolment hands out. -/
def Reply.enrolledKey : Reply → Option String
  | enrolled enrollment => some enrollment.key
  | _ => none

/-- The key that the last successful enrolment of a history has handed out. -/
def lastEnrolledKey (history : List Record) : Option String :=
  (history.filterMap fun r => r.reply.enrolledKey).getLast?

/-! ## The stored key -/

theorem Reply.enrolledKey_of_not_succeeded {reply : Reply} (h : reply.succeeded = false) :
    reply.enrolledKey = none := by
  cases reply with
  | enrolled => cases h
  | accepted | issued | refused => rfl

theorem Success.key_eq {policy : Policy} {seen before after : Credential} {request : Request}
    {reply : Reply} (h : Success policy seen before request reply after) :
    after.key = reply.enrolledKey.or before.key := by
  cases h <;> rfl

theorem Record.after_key (r : Record) :
    r.after.key = r.reply.enrolledKey.or r.before.key := by
  rcases r.success_or_unchanged with h | ⟨hfailed, hafter⟩
  · exact h.key_eq
  · rw [hafter, Reply.enrolledKey_of_not_succeeded hfailed, Option.none_or]

/-- After a run the stored key is the one handed out last, in whatever order the calls went. -/
theorem Linked.key_eq {history : List Record} {first last : Credential}
    (h : Linked first history last) : last.key = (lastEnrolledKey history).or first.key := by
  induction history generalizing first with
  | nil =>
    rw [show last = first from h]
    rfl
  | cons r rest ih =>
    obtain ⟨rfl, hrest⟩ := h
    rw [ih hrest, r.after_key]
    simp only [lastEnrolledKey, List.filterMap_cons]
    cases r.reply.enrolledKey with
    | none => rfl
    | some key =>
      simp only [List.getLast?_cons, Option.some_or]
      cases (rest.filterMap fun r => r.reply.enrolledKey).getLast? <;> rfl

/-! ## The key that was proved -/

theorem Record.request_of_confirmed {r : Record} (h : r.confirmed = true) :
    (∃ code now, r.request = .confirm code now) ∧ r.reply = .accepted true := by
  unfold confirmed at h
  split at h
  next code now hrequest => exact ⟨⟨code, now, hrequest⟩, of_decide_eq_true h⟩
  next => cases h

theorem Record.codeAccepted_of_confirmed {r : Record} (h : r.confirmed = true) :
    r.codeAccepted = true := by
  obtain ⟨⟨code, now, hrequest⟩, hreply⟩ := request_of_confirmed h
  simp only [codeAccepted, hrequest, hreply, Request.presented, Option.isSome_some,
    decide_true, Bool.and_true]

theorem Record.switches_on {r : Record} (h : r.confirmed = true) :
    r.before.enabled = false ∧ r.after = { r.before with
      enabled := true, lastTimecode := r.after.lastTimecode } := by
  have hs := success_of_codeAccepted (codeAccepted_of_confirmed h)
  obtain ⟨⟨code, now, hrequest⟩, -⟩ := request_of_confirmed h
  rw [hrequest] at hs
  generalize r.after = after at hs ⊢
  cases hs with
  | confirm _ _ _ stillOff => exact ⟨stillOff, rfl⟩

/-- A confirmation that succeeds has verified its code against the key that it has seen.  It
switches that key on exactly if no enrolment writes between its read and its write, or the last
one that does has handed out the same key again. -/
theorem confirmed_key_eq_iff (start : Credential) (steps : List Step) :
    ∀ r ∈ (World.idle start).history steps, r.confirmed = true →
      ∃ earlier between, r.Spans start steps earlier between ∧
        let overlapping :=
          ((World.idle start).exec earlier).history (.read r.id r.toCall :: between)
        (∃ timecode, r.acceptedTimecode = some timecode) ∧
        r.before.enabled = false ∧ r.after.enabled = true ∧
        r.after.key = (lastEnrolledKey overlapping).or r.seen.key ∧
        (r.after.key = r.seen.key ↔
          ∀ key ∈ lastEnrolledKey overlapping, r.seen.key = some key) := by
  intro r hr hconfirmed
  obtain ⟨earlier, between, hspans⟩ := exists_spans_of_mem_history hr
  refine ⟨earlier, between, hspans, ?_⟩
  intro overlapping
  obtain ⟨timecode, haccepted, -⟩ :=
    Record.exists_acceptedTimecode (Record.codeAccepted_of_confirmed hconfirmed)
  obtain ⟨hoff, hafter⟩ := Record.switches_on hconfirmed
  have hkey : r.after.key = (lastEnrolledKey overlapping).or r.seen.key := by
    have hlinked := history_linked ((World.idle start).exec earlier)
      (.read r.id r.toCall :: between)
    rw [← hspans.before_eq, ← hspans.seen_eq] at hlinked
    rw [hafter]
    exact hlinked.key_eq
  refine ⟨⟨timecode, haccepted⟩, hoff, by rw [hafter], hkey, ?_⟩
  rw [hkey]
  cases lastEnrolledKey overlapping with
  | none => simp
  | some key => simp [eq_comm]

/-! ## A key that was never proved -/

/-- The credential of an account whose owner has begun an enrolment. -/
def pendingCredential : Credential :=
  ⟨false, some "GEZDGNBVGY3TQOJQGEZDGNBVGY3TQOJQ", none, 0⟩

/-- A confirmation with the code of the pending key, and a second enrolment that begins and ends
between its read and its write. -/
def overtakenConfirmation : List Step :=
  let policy : Policy := ⟨Verifier.standard, 1⟩
  [.read 0 ⟨policy, .confirm "287082" ⟨59, 0, by decide, by decide, by decide⟩⟩,
    .read 1 ⟨policy, .begin "ada" (Vector.replicate 20 0) []⟩, .finish 1, .finish 0]

theorem overtakenConfirmation_confirms :
    ∃ r ∈ (World.idle pendingCredential).history overtakenConfirmation,
      r.confirmed = true ∧ r.after.key ≠ r.seen.key := by
  have hany : ((World.idle pendingCredential).history overtakenConfirmation).any
      (fun r => r.confirmed && r.after.key ≠ r.seen.key) = true := by decide +kernel
  obtain ⟨r, hr, h⟩ := List.any_eq_true.mp hany
  rw [Bool.and_eq_true, decide_eq_true_eq] at h
  exact ⟨r, hr, h⟩

theorem confirmed_key_eq_iff_overtaken :
    ∃ r ∈ (World.idle pendingCredential).history overtakenConfirmation, r.confirmed = true ∧
      ∃ earlier between, r.Spans pendingCredential overtakenConfirmation earlier between ∧
        let overlapping :=
          ((World.idle pendingCredential).exec earlier).history (.read r.id r.toCall :: between)
        (∃ timecode, r.acceptedTimecode = some timecode) ∧
        r.before.enabled = false ∧ r.after.enabled = true ∧
        r.after.key = (lastEnrolledKey overlapping).or r.seen.key ∧
        (r.after.key = r.seen.key ↔
          ∀ key ∈ lastEnrolledKey overlapping, r.seen.key = some key) := by
  obtain ⟨r, hr, hconfirmed, -⟩ := overtakenConfirmation_confirms
  exact ⟨r, hr, hconfirmed,
    confirmed_key_eq_iff pendingCredential overtakenConfirmation r hr hconfirmed⟩

theorem confirmed_key_may_be_unproved :
    ¬ ∀ (start : Credential) (steps : List Step),
      ∀ r ∈ (World.idle start).history steps, r.confirmed = true →
        r.after.key = r.seen.key := by
  intro h
  obtain ⟨r, hr, hconfirmed, hkey⟩ := overtakenConfirmation_confirms
  exact hkey (h pendingCredential overtakenConfirmation r hr hconfirmed)

end TwoFactor
end Contestant
