import Contestant.TwoFactor.Account

/-!
One two-factor call: a read of the credential and, at a later moment, at most one write.

What the call has seen may be out of date when its write meets the live credential.  `Success` says
what a call has done that succeeds: which write it decided on from the credential it saw, and what
the live credential must have kept of it.  `Record.success_iff` says that these are exactly the
calls that succeed, and `Record.after_of_not_succeeded` that every other call leaves the live
credential alone.  Nothing that is proved about runs looks further into the requests than that.
-/

namespace Contestant
namespace TwoFactor

open OneTime

def Reply.succeeded : Reply → Bool
  | accepted answer => answer
  | enrolled _ => true
  | issued _ => true
  | refused _ => false

/-- A request under the policy that serves it. -/
structure Call where
  policy : Policy
  request : Request

/-- A call that has read the credential. -/
structure Flight extends Call where
  seen : Credential

/-- A finished call, with the live credential at the instant of its write. -/
structure Record extends Flight where
  id : Nat
  before : Credential

namespace Record

/-- The call with what it has seen shown to its read and its write on the live credential. -/
def served (r : Record) : Reply × Account :=
  ({ live := r.before, frozen := some r.seen } : Account).serve r.policy r.request

def reply (r : Record) : Reply := r.served.1

/-- The live credential after the call. -/
def after (r : Record) : Credential := r.served.2.live

def succeeded (r : Record) : Bool := r.reply.succeeded

/-- What the call decided from what it had seen. -/
def decision (r : Record) : Decision := r.request.decide r.policy r.seen

/- An enrolment is decided from the live credential, since it does not read.  Its decision is the
same for every credential. -/
theorem served_eq_carryOut (r : Record) :
    r.served =
      ({ live := r.before, frozen := some r.seen } : Account).carryOut r.decision := by
  unfold served decision
  cases r.request <;> rfl

theorem served_of_reply {r : Record} {reply : Reply} (h : r.decision = .reply reply) :
    r.reply = reply ∧ r.after = r.before := by
  unfold Record.reply after
  rw [served_eq_carryOut, h]
  exact ⟨rfl, rfl⟩

theorem served_of_admits {r : Record} {w : Write} {done failed : Reply}
    (h : r.decision = .attempt w done failed) (hw : w.admits r.before = true) :
    r.reply = done ∧ r.after = w.result r.before := by
  unfold Record.reply after
  rw [served_eq_carryOut, h]
  simp [Account.carryOut, Account.write, Write.apply, hw]

theorem served_of_not_admits {r : Record} {w : Write} {done failed : Reply}
    (h : r.decision = .attempt w done failed) (hw : w.admits r.before = false) :
    r.reply = failed ∧ r.after = r.before := by
  unfold Record.reply after
  rw [served_eq_carryOut, h]
  simp [Account.carryOut, Account.write, Write.apply, hw]

/-- What the call has decided comes to the same on every account with this live credential, unless
it is a write that fails. -/
theorem carryOut_eq {r : Record} {a : Account} (hlive : a.live = r.before)
    (hwritable : ∀ w done failed, r.decision = .attempt w done failed → a.faults .write = none) :
    a.carryOut r.decision = (r.reply, { a with live := r.after }) := by
  cases hd : r.decision with
  | reply reply =>
    obtain ⟨hreply, hafter⟩ := served_of_reply hd
    rw [hreply, hafter, ← hlive]
    rfl
  | attempt w done failed =>
    have hup := hwritable w done failed hd
    cases hw : w.admits r.before with
    | true =>
      obtain ⟨hreply, hafter⟩ := served_of_admits hd hw
      rw [hreply, hafter]
      simp [Account.carryOut, Account.write, hup, Write.apply, hlive, hw]
    | false =>
      obtain ⟨hreply, hafter⟩ := served_of_not_admits hd hw
      rw [hreply, hafter, ← hlive]
      simp [Account.carryOut, Account.write, hup, Write.apply, hlive, hw]

end Record

/-! ## Calls that succeed -/

/-- A call has seen one credential, and its write has found another and turned it into a third. -/
inductive Success (policy : Policy) (seen before : Credential) :
    Request → Reply → Credential → Prop
  | checkCode {code : String} {now : Instant} {timecode : Timecode} {next : OneTime.State}
      (on : seen.enabled = true)
      (proved : policy.verifier.verify (seen.state policy.tolerance) code now =
        .accepted timecode next)
      (kept : before.lastTimecode = seen.lastTimecode) (later : seen.lastTimecode < timecode) :
      Success policy seen before (.checkCode code now) (.accepted true)
        { before with lastTimecode := timecode }
  | checkScratch {code : String} {codes rest : Scratch.Codes}
      (on : seen.enabled = true) (parsed : Scratch.Codes.parse seen.scratch = .ok codes)
      (consumed : codes.consume code = some rest) (kept : before.scratch = seen.scratch) :
      Success policy seen before (.checkScratch code) (.accepted true)
        { before with scratch := some rest.toJson }
  | begin {username : String} {random : Vector UInt8 20} {draws : List Scratch.Draw}
      (off : before.enabled = false) :
      Success policy seen before (.begin username random draws)
        (.enrolled (Request.enrollment policy username random draws))
        { before with
          key := some (freshKey random)
          scratch := some (Scratch.Codes.ofDraws draws).toJson
          lastTimecode := 0 }
  | confirm {code : String} {now : Instant} {timecode : Timecode} {next : OneTime.State}
      (off : seen.enabled = false) (pending : seen.key.isSome = true)
      (proved : policy.verifier.verify (seen.state policy.tolerance) code now =
        .accepted timecode next)
      (stillOff : before.enabled = false) (stillPending : before.key.isSome = true)
      (kept : before.lastTimecode = seen.lastTimecode) (later : seen.lastTimecode < timecode) :
      Success policy seen before (.confirm code now) (.accepted true)
        { before with enabled := true, lastTimecode := timecode }
  | regenerate {draws : List Scratch.Draw}
      (on : seen.enabled = true) (kept : before.scratch = seen.scratch) :
      Success policy seen before (.regenerate draws)
        (.issued (Scratch.Codes.ofDraws draws).texts)
        { before with scratch := some (Scratch.Codes.ofDraws draws).toJson }

variable {policy : Policy} {seen before after : Credential} {request : Request} {reply : Reply}

theorem Success.attempt (h : Success policy seen before request reply after) :
    ∃ w failed, request.decide policy seen = .attempt w reply failed ∧
      w.admits before = true ∧ w.result before = after := by
  cases h with
  | @checkCode code now timecode next on proved kept later =>
    refine ⟨.advance seen.lastTimecode timecode, .accepted false, ?_, ?_, rfl⟩
    · simp only [Request.decide, on, if_true, Request.decideCode, proved]
    · simpa [Write.admits] using ⟨kept, later⟩
  | @checkScratch code codes rest on parsed consumed kept =>
    refine ⟨.replaceScratch seen.scratch rest.toJson, .accepted false, ?_, ?_, rfl⟩
    · simp only [Request.decide, on, if_true, Request.decideScratch, parsed, consumed]
    · simpa [Write.admits] using kept
  | @begin username random draws off =>
    refine ⟨.enroll (freshKey random) (Scratch.Codes.ofDraws draws).toJson,
      .refused .alreadyEnabled, rfl, ?_, rfl⟩
    simpa [Write.admits] using off
  | @confirm code now timecode next off pending proved stillOff stillPending kept later =>
    refine ⟨.enable seen.lastTimecode timecode, .accepted false, ?_, ?_, rfl⟩
    · simp only [Request.decide, off, Option.isNone_eq_false_iff.mpr pending, Bool.false_eq_true,
        if_false, Request.decideCode, proved]
    · simpa [Write.admits, and_assoc] using ⟨stillOff, stillPending, kept, later⟩
  | @regenerate draws on kept =>
    refine ⟨.replaceScratch seen.scratch (Scratch.Codes.ofDraws draws).toJson,
      .refused .codesChanged, ?_, ?_, rfl⟩
    · simp only [Request.decide, on, if_true]
    · simpa [Write.admits] using kept

theorem Success.succeeded (h : Success policy seen before request reply after) :
    reply.succeeded = true := by
  cases h <;> rfl

/-- A decision that keeps to the successes of a request: a reply without a write reports none, nor
does a write that did not take place, and a write that took place is one of them. -/
def Decision.Justified (policy : Policy) (seen : Credential) (request : Request) :
    Decision → Prop
  | .reply reply => reply.succeeded = false
  | .attempt w done failed =>
    failed.succeeded = false ∧
      ∀ before, w.admits before = true →
        Success policy seen before request done (w.result before)

theorem decide_justified (policy : Policy) (request : Request) (seen : Credential) :
    (request.decide policy seen).Justified policy seen request := by
  cases request with
  | checkCode code now =>
    simp only [Request.decide, Request.decideCode]
    split
    next on =>
      split
      next timecode next proved =>
        refine ⟨rfl, fun before hw => ?_⟩
        simp only [Write.admits, Bool.and_eq_true, decide_eq_true_eq] at hw
        exact .checkCode on proved hw.1 hw.2
      next => rfl
    next => rfl
  | checkScratch code =>
    simp only [Request.decide, Request.decideScratch]
    split
    next on =>
      split
      next => rfl
      next codes parsed =>
        split
        next => rfl
        next rest consumed =>
          refine ⟨rfl, fun before hw => ?_⟩
          simp only [Write.admits, decide_eq_true_eq] at hw
          exact .checkScratch on parsed consumed hw
    next => rfl
  | begin username random draws =>
    refine ⟨rfl, fun before hw => ?_⟩
    simp only [Write.admits, Bool.not_eq_true'] at hw
    exact .begin hw
  | confirm code now =>
    simp only [Request.decide, Request.decideCode]
    split
    next => rfl
    next off =>
      split
      next => rfl
      next pending =>
        split
        next timecode next proved =>
          refine ⟨rfl, fun before hw => ?_⟩
          simp only [Write.admits, Bool.and_eq_true, decide_eq_true_eq, Bool.not_eq_true'] at hw
          obtain ⟨⟨⟨stillOff, stillPending⟩, kept⟩, later⟩ := hw
          have off' : seen.enabled = false := Bool.eq_false_iff.mpr off
          have pending' : seen.key.isSome = true := by
            rw [← Option.not_isNone, Bool.not_eq_true']
            exact Bool.eq_false_iff.mpr pending
          exact .confirm off' pending' proved stillOff stillPending kept later
        next => rfl
  | regenerate draws =>
    simp only [Request.decide]
    split
    next on =>
      refine ⟨rfl, fun before hw => ?_⟩
      simp only [Write.admits, decide_eq_true_eq] at hw
      exact .regenerate on hw
    next => rfl

namespace Record

theorem reply_after_of_success {r : Record}
    (h : Success r.policy r.seen r.before r.request reply after) :
    r.reply = reply ∧ r.after = after := by
  obtain ⟨w, failed, hd, hw, rfl⟩ := h.attempt
  exact served_of_admits hd hw

theorem success_or_unchanged (r : Record) :
    Success r.policy r.seen r.before r.request r.reply r.after ∨
      r.succeeded = false ∧ r.after = r.before := by
  have h := decide_justified r.policy r.request r.seen
  cases hd : r.decision with
  | reply reply =>
    obtain ⟨hreply, hafter⟩ := served_of_reply hd
    rw [decision] at hd
    rw [hd] at h
    right
    rw [succeeded, hreply]
    exact ⟨h, hafter⟩
  | attempt w done failed =>
    cases hw : w.admits r.before with
    | true =>
      obtain ⟨hreply, hafter⟩ := served_of_admits hd hw
      rw [decision] at hd
      rw [hd] at h
      left
      rw [hreply, hafter]
      exact h.2 r.before hw
    | false =>
      obtain ⟨hreply, hafter⟩ := served_of_not_admits hd hw
      rw [decision] at hd
      rw [hd] at h
      right
      rw [succeeded, hreply]
      exact ⟨h.1, hafter⟩

theorem success_iff {r : Record} :
    Success r.policy r.seen r.before r.request reply after ↔
      r.succeeded = true ∧ r.reply = reply ∧ r.after = after := by
  constructor
  · intro h
    obtain ⟨hreply, hafter⟩ := reply_after_of_success h
    refine ⟨?_, hreply, hafter⟩
    rw [succeeded, hreply]
    exact h.succeeded
  · rintro ⟨hs, rfl, rfl⟩
    rcases r.success_or_unchanged with h | ⟨hf, -⟩
    · exact h
    · rw [hs] at hf
      cases hf

theorem success_of_succeeded {r : Record} (h : r.succeeded = true) :
    Success r.policy r.seen r.before r.request r.reply r.after :=
  success_iff.mpr ⟨h, rfl, rfl⟩

theorem after_of_not_succeeded {r : Record} (h : r.succeeded = false) : r.after = r.before := by
  rcases r.success_or_unchanged with hs | ⟨-, hafter⟩
  · rw [success_iff, h] at hs
    cases hs.1
  · exact hafter

end Record

/-! ## Accepted timecodes -/

/-- The one-time code that a request presents, and when it does. -/
def Request.presented : Request → Option (String × Instant)
  | checkCode code now => some (code, now)
  | confirm code now => some (code, now)
  | _ => none

/-- The timecode that a one-time code proves against a credential. -/
def Policy.provedTimecode (policy : Policy) (seen : Credential) (code : String) (now : Instant) :
    Option Timecode :=
  match policy.verifier.verify (seen.state policy.tolerance) code now with
  | .accepted timecode _ => some timecode
  | .rejected _ => none

namespace Record

/-- Whether the call's one-time code has been accepted. -/
def codeAccepted (r : Record) : Bool := r.request.presented.isSome && r.reply = .accepted true

/-- The timecode at which the call's one-time code has been accepted. -/
def acceptedTimecode (r : Record) : Option Timecode :=
  if r.codeAccepted then
    r.request.presented.bind fun (code, now) => r.policy.provedTimecode r.seen code now
  else none

end Record

/-- An accepted one-time code moves the last timecode up from where the call has seen it. -/
theorem Success.moves_timecode (h : Success policy seen before request (.accepted true) after)
    (hpresented : request.presented.isSome = true) :
    ∃ timecode,
      (request.presented.bind fun (code, now) => policy.provedTimecode seen code now) =
        some timecode ∧
      before.lastTimecode = seen.lastTimecode ∧ before.lastTimecode < timecode ∧
      after.lastTimecode = timecode := by
  cases h with
  | @checkCode code now timecode next on proved kept later =>
    refine ⟨timecode, ?_, kept, kept ▸ later, rfl⟩
    simp only [Request.presented, Option.bind_some, Policy.provedTimecode, proved]
  | checkScratch => cases hpresented
  | @confirm code now timecode next off pending proved stillOff stillPending kept later =>
    refine ⟨timecode, ?_, kept, kept ▸ later, rfl⟩
    simp only [Request.presented, Option.bind_some, Policy.provedTimecode, proved]

namespace Record

theorem success_of_codeAccepted {r : Record} (h : r.codeAccepted = true) :
    Success r.policy r.seen r.before r.request (.accepted true) r.after := by
  simp only [codeAccepted, Bool.and_eq_true, decide_eq_true_eq] at h
  have hs : r.succeeded = true := by
    rw [succeeded, h.2]
    rfl
  rw [← h.2]
  exact success_of_succeeded hs

theorem exists_acceptedTimecode {r : Record} (h : r.codeAccepted = true) :
    ∃ timecode, r.acceptedTimecode = some timecode ∧
      r.before.lastTimecode = r.seen.lastTimecode ∧ r.before.lastTimecode < timecode ∧
      r.after.lastTimecode = timecode := by
  have hpresented := h
  simp only [codeAccepted, Bool.and_eq_true] at hpresented
  simp only [acceptedTimecode, h, if_true]
  exact (success_of_codeAccepted h).moves_timecode hpresented.1

theorem acceptedTimecode_of_not_codeAccepted {r : Record} (h : r.codeAccepted = false) :
    r.acceptedTimecode = none := by
  simp only [acceptedTimecode, h, Bool.false_eq_true, if_false]

theorem codeAccepted_of_acceptedTimecode {r : Record} {timecode : Timecode}
    (h : r.acceptedTimecode = some timecode) : r.codeAccepted = true := by
  cases hcode : r.codeAccepted with
  | true => rfl
  | false =>
    rw [acceptedTimecode_of_not_codeAccepted hcode] at h
    cases h

theorem acceptedTimecode_eq (r : Record) :
    r.acceptedTimecode = if r.codeAccepted then some r.after.lastTimecode else none := by
  cases hcode : r.codeAccepted with
  | true =>
    obtain ⟨timecode, haccepted, -, -, hafter⟩ := exists_acceptedTimecode hcode
    rw [haccepted, hafter]
    rfl
  | false => exact acceptedTimecode_of_not_codeAccepted hcode

end Record
end TwoFactor
end Contestant
