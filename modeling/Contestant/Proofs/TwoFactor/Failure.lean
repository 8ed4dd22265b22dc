import Contestant.Proofs.Scratch.Typed
import Contestant.Proofs.TwoFactor.ScratchAccounting

/-!
What a request does to an account when it succeeds, and when it does not.

A request fails because its read or its write is down, because what it has seen does not entitle it
to a write, or because its write no longer finds what the request has seen.  `Account.Served` has a
case for either fault and one for all that happens without a fault, which is what is known of calls.
In no case is anything written before the request has failed.  Of a one-time code or a scratch code
that is not accepted nothing is told but that it is not accepted, whether the credential is off, its
key or its codes are missing or unreadable, or the code is wrong or used up: the only other answer
is the fault of an access, and the one of the write shows only if the code was accepted.
-/

namespace Contestant
namespace TwoFactor

open Scratch

/-- What a request may change of a credential; it keeps everything else. -/
def Request.Confines (request : Request) (before after : Credential) : Prop :=
  match request with
  | checkCode _ _ => after = { before with lastTimecode := after.lastTimecode }
  | checkScratch _ | regenerate _ => after = { before with scratch := after.scratch }
  | begin _ _ _ =>
    after = { before with
      key := after.key, scratch := after.scratch, lastTimecode := after.lastTimecode }
  | confirm _ _ =>
    after = { before with enabled := after.enabled, lastTimecode := after.lastTimecode }

/-- The answer to a request that has succeeded.  What it shows to the user is what the credential
holds, with the codes that are read back from the stored text. -/
def Request.Answered (request : Request) (reply : Reply) (after : Credential) : Prop :=
  match request with
  | checkCode _ _ | checkScratch _ | confirm _ _ => reply = .accepted true
  | begin _ _ _ => ∃ e, reply = .enrolled e ∧ after.key = some e.key ∧
      ∃ codes, Codes.parse after.scratch = .ok codes ∧ codes.texts = e.scratchCodes
  | regenerate _ => ∃ texts, reply = .issued texts ∧
      ∃ codes, Codes.parse after.scratch = .ok codes ∧ codes.texts = texts

/-- Whether a request only checks a code. -/
def Request.isCheck : Request → Bool
  | checkCode _ _ | checkScratch _ => true
  | begin _ _ _ | confirm _ _ | regenerate _ => false

/-- The credential is on, and it accepts the code that a check presents. -/
def Credential.Accepts (c : Credential) (policy : Policy) (request : Request) : Prop :=
  c.enabled = true ∧
    match request with
    | .checkCode code now => (policy.provedTimecode c code now).isSome = true
    | .checkScratch code => normalForm code ∈ c.unusedCodes
    | .begin _ _ _ | .confirm _ _ | .regenerate _ => False

variable {policy : Policy} {seen before after : Credential} {request : Request} {reply : Reply}

/-! ## A request without faults -/

theorem Success.confined (h : Success policy seen before request reply after) :
    request.Confines before after := by
  cases h <;> rfl

theorem Success.answered (h : Success policy seen before request reply after) :
    request.Answered reply after := by
  cases h with
  | checkCode | checkScratch | confirm => rfl
  | @begin username random draws off =>
    exact ⟨_, rfl, rfl, Codes.ofDraws draws, Codes.parse_toJson _, rfl⟩
  | @regenerate draws => exact ⟨_, rfl, Codes.ofDraws draws, Codes.parse_toJson _, rfl⟩

theorem unusedCodes_of_parse_error {fault : InputFault}
    (h : Codes.parse seen.scratch = .error fault) : seen.unusedCodes = [] := by
  simp only [Credential.unusedCodes, h]

theorem decide_of_off (h : request.isCheck = true) (off : seen.enabled = false) :
    request.decide policy seen = .reply (.accepted false) := by
  cases request with
  | begin | confirm | regenerate => cases h
  | checkCode | checkScratch => simp only [Request.decide, off, Bool.false_eq_true, if_false]

/-- A check tries a write exactly if the code is accepted. -/
theorem decide_of_isCheck (h : request.isCheck = true) (policy : Policy) (seen : Credential) :
    (seen.Accepts policy request ∧
        ∃ w, request.decide policy seen = .attempt w (.accepted true) (.accepted false)) ∨
      (¬ seen.Accepts policy request ∧
        request.decide policy seen = .reply (.accepted false)) := by
  cases on : seen.enabled with
  | false =>
    refine .inr ⟨fun haccepts => ?_, decide_of_off h on⟩
    rw [haccepts.1] at on
    cases on
  | true =>
    cases request with
    | begin | confirm | regenerate => cases h
    | checkCode code now =>
      simp only [Credential.Accepts, on, true_and, Policy.provedTimecode, Request.decide, if_true,
        Request.decideCode]
      cases policy.verifier.verify (seen.state policy.tolerance) code now with
      | accepted timecode next => exact .inl ⟨rfl, _, rfl⟩
      | rejected reason => exact .inr ⟨Bool.false_ne_true, rfl⟩
    | checkScratch code =>
      simp only [Credential.Accepts, on, true_and, Request.decide, if_true, Request.decideScratch]
      cases hparse : Codes.parse seen.scratch with
      | error fault =>
        rw [unusedCodes_of_parse_error hparse]
        exact .inr ⟨List.not_mem_nil, rfl⟩
      | ok codes =>
        simp only [Credential.unusedCodes_of_parse hparse, ← Codes.isSome_consume_iff]
        cases codes.consume code with
        | some rest => exact .inl ⟨rfl, _, rfl⟩
        | none => exact .inr ⟨Bool.false_ne_true, rfl⟩

/-! ## Faults -/

/-- The call that a request amounts to where its accesses work. -/
def Account.record (a : Account) (policy : Policy) (request : Request) : Record :=
  { policy, request, seen := a.seen, id := 0, before := a.live }

/-- How a request is served: it fails with its read, it fails with its write, or it goes as the call
goes whose accesses work. -/
inductive Account.Served (policy : Policy) (a : Account) (request : Request) :
    Reply × Account → Prop
  | unread {fault : ServiceFault} (reads : request.reads = true)
      (down : a.faults .read = some fault) :
      Served policy a request (.refused (.unavailable fault), a)
  | unwritten {w : Write} {done failed : Reply} {fault : ServiceFault}
      (readable : request.reads = true → a.faults .read = none)
      (attempts : request.decide policy a.seen = .attempt w done failed)
      (down : a.faults .write = some fault) :
      Served policy a request (.refused (.unavailable fault), a)
  | worked (readable : request.reads = true → a.faults .read = none)
      (writable : ∀ w done failed, request.decide policy a.seen = .attempt w done failed →
        a.faults .write = none) :
      Served policy a request
        ((a.record policy request).reply, { a with live := (a.record policy request).after })

variable {a : Account} {result : Reply × Account}

theorem Account.carryOut_of_down {w : Write} {done failed : Reply} {fault : ServiceFault}
    (down : a.faults .write = some fault) :
    a.carryOut (.attempt w done failed) = (.refused (.unavailable fault), a) := by
  simp only [carryOut, write, down]

theorem Account.served_carryOut (hreadable : request.reads = true → a.faults .read = none) :
    Served policy a request (a.carryOut (request.decide policy a.seen)) := by
  have hworks := Record.carryOut_eq (r := a.record policy request) (a := a) rfl
  rw [show (a.record policy request).decision = request.decide policy a.seen from rfl] at hworks
  cases hfault : a.faults .write with
  | none =>
    rw [hworks fun _ _ _ _ => hfault]
    exact .worked hreadable fun _ _ _ _ => hfault
  | some fault =>
    cases hd : request.decide policy a.seen with
    | attempt w done failed =>
      rw [carryOut_of_down hfault]
      exact .unwritten hreadable hd hfault
    | reply reply =>
      have hwritable : ∀ w done failed, request.decide policy a.seen = .attempt w done failed →
          a.faults .write = none := by
        intro w done failed hattempts
        rw [hd] at hattempts
        cases hattempts
      rw [← hd, hworks hwritable]
      exact .worked hreadable hwritable

theorem Account.served (policy : Policy) (a : Account) (request : Request) :
    Served policy a request (a.serve policy request) := by
  cases hreads : request.reads with
  | false =>
    have hserve : a.serve policy request = a.carryOut (request.decide policy a.seen) := by
      cases request with
      | begin => rfl
      | checkCode | checkScratch | confirm | regenerate => cases hreads
    rw [hserve]
    exact served_carryOut fun hreads' => absurd (hreads.symm.trans hreads') Bool.false_ne_true
  | true =>
    simp only [serve, hreads, if_true, read]
    cases hfault : a.faults .read with
    | some fault => exact .unread hreads hfault
    | none => exact served_carryOut fun _ => hfault

theorem Account.exists_record_reply (a : Account) (policy : Policy)
    (hcheck : request.isCheck = true) :
    ∃ answer, (a.record policy request).reply = .accepted answer := by
  rcases decide_of_isCheck hcheck policy a.seen with ⟨-, w, hd⟩ | ⟨-, hd⟩
  · cases hw : w.admits a.live with
    | true => exact ⟨true, (Record.served_of_admits (r := a.record policy request) hd hw).1⟩
    | false => exact ⟨false, (Record.served_of_not_admits (r := a.record policy request) hd hw).1⟩
  · exact ⟨false, (Record.served_of_reply (r := a.record policy request) hd).1⟩

namespace Account.Served

theorem unchanged (h : Served policy a request result) (hfailed : result.1.succeeded = false) :
    result.2 = a := by
  cases h with
  | unread | unwritten => rfl
  | worked =>
    have hafter := Record.after_of_not_succeeded (r := a.record policy request) hfailed
    rw [hafter]
    rfl

theorem success (h : Served policy a request result) (hs : result.1.succeeded = true) :
    Success policy a.seen a.live request result.1 result.2.live ∧
      result.2 = { a with live := result.2.live } := by
  cases h with
  | unread | unwritten => cases hs
  | worked => exact ⟨Record.success_of_succeeded (r := a.record policy request) hs, rfl⟩

/-- A check is refused by the fault of its read, or by that of its write if the code is accepted. -/
theorem check_refused_iff (h : Served policy a request result) (hcheck : request.isCheck = true)
    {refusal : Refusal} :
    result.1 = .refused refusal ↔ ∃ fault, refusal = .unavailable fault ∧
      (a.faults .read = some fault ∨
        a.faults .read = none ∧ a.seen.Accepts policy request ∧ a.faults .write = some fault) := by
  have hreads : request.reads = true := by
    cases request with
    | checkCode | checkScratch => rfl
    | begin | confirm | regenerate => cases hcheck
  cases h with
  | @unread fault reads down =>
    constructor
    · intro hrefused
      cases hrefused
      exact ⟨fault, rfl, .inl down⟩
    · rintro ⟨fault', rfl, hfault | ⟨hfault, -⟩⟩
      · rw [down] at hfault
        cases hfault
        rfl
      · rw [down] at hfault
        cases hfault
  | @unwritten w done failed fault readable attempts down =>
    have haccepts : a.seen.Accepts policy request := by
      rcases decide_of_isCheck hcheck policy a.seen with ⟨haccepts, -⟩ | ⟨-, hd⟩
      · exact haccepts
      · rw [attempts] at hd
        cases hd
    constructor
    · intro hrefused
      cases hrefused
      exact ⟨fault, rfl, .inr ⟨readable hreads, haccepts, down⟩⟩
    · rintro ⟨fault', rfl, hfault | ⟨-, -, hfault⟩⟩
      · rw [readable hreads] at hfault
        cases hfault
      · rw [down] at hfault
        cases hfault
        rfl
  | worked readable writable =>
    obtain ⟨answer, hreply⟩ := a.exists_record_reply policy hcheck
    constructor
    · intro hrefused
      rw [hreply] at hrefused
      cases hrefused
    · rintro ⟨fault, -, hfault | ⟨-, haccepts, hfault⟩⟩
      · rw [readable hreads] at hfault
        cases hfault
      · rcases decide_of_isCheck hcheck policy a.seen with ⟨-, w, hd⟩ | ⟨hrejects, -⟩
        · rw [writable w _ _ hd] at hfault
          cases hfault
        · exact absurd haccepts hrejects

theorem check_answers_or_refused (h : Served policy a request result)
    (hcheck : request.isCheck = true) :
    (∃ answer, result.1 = .accepted answer) ∨ ∃ refusal, result.1 = .refused refusal := by
  cases h with
  | unread | unwritten => exact .inr ⟨_, rfl⟩
  | worked => exact .inl (a.exists_record_reply policy hcheck)

end Account.Served

/-- Whatever the account is, whatever its reads show and whichever of its accesses fail: a request
that does not succeed leaves the account as it was, and one that succeeds changes of the live
credential only what is its own to change and shows the user what is stored.  A check answers
whether the code is accepted unless its read fails, or its write does for a code that is. -/
theorem failed_requests_change_nothing (policy : Policy) (a : Account) (request : Request) :
    let reply := (a.serve policy request).1
    let next := (a.serve policy request).2
    (reply.succeeded = false → next = a) ∧
    (reply.succeeded = true →
      next = { a with live := next.live } ∧ request.Confines a.live next.live ∧
        request.Answered reply next.live) ∧
    (request.isCheck = true →
      ((∃ answer, reply = .accepted answer) ∨ ∃ refusal, reply = .refused refusal) ∧
      ∀ refusal, reply = .refused refusal ↔ ∃ fault, refusal = .unavailable fault ∧
        (a.faults .read = some fault ∨
          a.faults .read = none ∧ a.seen.Accepts policy request ∧
            a.faults .write = some fault)) := by
  intro reply next
  have hserved := a.served policy request
  refine ⟨hserved.unchanged, fun hs => ?_, fun hcheck => ?_⟩
  · obtain ⟨hsuccess, hnext⟩ := hserved.success hs
    exact ⟨hnext, hsuccess.confined, hsuccess.answered⟩
  · exact ⟨hserved.check_answers_or_refused hcheck, fun _ => hserved.check_refused_iff hcheck⟩

end TwoFactor
end Contestant
