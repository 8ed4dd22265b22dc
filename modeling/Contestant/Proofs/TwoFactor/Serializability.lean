import Contestant.Proofs.TwoFactor.Lifecycle

/-!
Calls on a credential that is on might as well have come one at a time.

A call decides from the credential that it has seen, and its write compares one column of it.  Its
decision depends on more than that column, but what else it depends on is the switch and the key,
and these stay while the credential is on.  So a call that succeeds would have decided the same
from the live credential, and a history is what its successful calls give when each of them reads
right before it writes.
-/

namespace Contestant
namespace TwoFactor

/-- The call with its read moved up to its write. -/
def Record.uninterrupted (r : Record) : Record := { r with seen := r.before }

/-- The calls of a history one at a time, each with nothing between its read and its write. -/
def oneAtATime (history : List Record) : List Step :=
  history.flatMap fun r => [.read r.id r.toCall, .finish r.id]

/-! ## One call -/

theorem Credential.StaysOn.state_eq {seen before : Credential} (h : seen.StaysOn before)
    (on : seen.enabled = true) (kept : before.lastTimecode = seen.lastTimecode)
    (tolerance : Nat) : before.state tolerance = seen.state tolerance := by
  simp only [Credential.state, (h on).2, kept]

theorem Success.uninterrupted {policy : Policy} {seen before after : Credential}
    {request : Request} {reply : Reply} (h : Success policy seen before request reply after)
    (hseen : seen.StaysOn before) (on : before.enabled = true) :
    Success policy before before request reply after := by
  cases h with
  | @checkCode code now timecode next seenOn proved kept later =>
    rw [← hseen.state_eq seenOn kept] at proved
    rw [← kept] at later
    exact .checkCode on proved rfl later
  | @checkScratch code codes rest seenOn parsed consumed kept =>
    rw [← kept] at parsed
    exact .checkScratch on parsed consumed rfl
  | begin off =>
    rw [off] at on
    cases on
  | confirm _ _ _ stillOff =>
    rw [stillOff] at on
    cases on
  | regenerate => exact .regenerate on rfl

namespace Record

/-- Whether the call was interrupted makes no difference to it. -/
structure Undisturbed (r : Record) : Prop where
  reply : r.uninterrupted.reply = r.reply
  after : r.uninterrupted.after = r.after

theorem undisturbed {r : Record} (hs : r.succeeded = true) (hseen : r.seen.StaysOn r.before)
    (on : r.before.enabled = true) : r.Undisturbed := by
  have h : Success r.uninterrupted.policy r.uninterrupted.seen r.uninterrupted.before
      r.uninterrupted.request r.reply r.after :=
    (success_of_succeeded hs).uninterrupted hseen on
  obtain ⟨hreply, hafter⟩ := reply_after_of_success h
  exact ⟨hreply, hafter⟩

theorem Undisturbed.acceptedTimecode {r : Record} (h : r.Undisturbed) :
    r.uninterrupted.acceptedTimecode = r.acceptedTimecode := by
  rw [acceptedTimecode_eq, acceptedTimecode_eq, h.after]
  simp only [codeAccepted, h.reply]
  rfl

/-- A call that is not interrupted is one request served from its read to its write. -/
theorem serve_eq {r : Record} (h : r.seen = r.before) :
    ({ live := r.before } : Account).serve r.policy r.request = (r.reply, { live := r.after }) := by
  have hserve : ({ live := r.before } : Account).serve r.policy r.request =
      ({ live := r.before } : Account).carryOut r.decision := by
    rw [decision, h]
    cases r.request <;> rfl
  rw [hserve]
  exact carryOut_eq rfl fun _ _ _ _ => rfl

end Record

/-! ## A run -/

theorem history_oneAtATime_cons (w : World) (r : Record) (rest : List Record)
    (hbefore : r.before = w.live) :
    ∃ next : World, next.live = r.uninterrupted.after ∧
      w.history (oneAtATime (r :: rest)) = r.uninterrupted :: next.history (oneAtATime rest) ∧
      w.exec (oneAtATime (r :: rest)) = next.exec (oneAtATime rest) := by
  have hrecord : (w.next (.read r.id r.toCall)).record r.id = some r.uninterrupted := by
    simp only [World.record, World.next, if_true, Option.map_some, Record.uninterrupted, hbefore]
  refine ⟨(w.next (.read r.id r.toCall)).next (.finish r.id), ?_, ?_, rfl⟩
  · rw [World.next_finish_live, hrecord, Option.elim_some]
  · show ((w.next (.read r.id r.toCall)).record r.id).toList ++ _ = _
    rw [hrecord]
    rfl

/-- The successful calls of a chain, made one at a time, take the same course as in the chain. -/
theorem Linked.oneAtATime {history : List Record} {last : Credential} {w : World}
    (h : Linked w.live history last)
    (hall : ∀ r ∈ history, r.succeeded = true → r.Undisturbed) :
    w.history (oneAtATime (history.filter Record.succeeded)) =
        (history.filter Record.succeeded).map Record.uninterrupted ∧
      (w.exec (oneAtATime (history.filter Record.succeeded))).live = last := by
  induction history generalizing w with
  | nil => exact ⟨rfl, Eq.symm h⟩
  | cons r rest ih =>
    obtain ⟨hbefore, hrest⟩ := h
    obtain ⟨hr, hall⟩ := List.forall_mem_cons.mp hall
    cases hs : r.succeeded with
    | false =>
      rw [Record.after_of_not_succeeded hs, hbefore] at hrest
      rw [List.filter_cons_of_neg (by rw [hs]; exact Bool.false_ne_true)]
      exact ih hrest hall
    | true =>
      obtain ⟨next, hlive, hhistory, hexec⟩ :=
        history_oneAtATime_cons w r (rest.filter Record.succeeded) hbefore
      rw [← (hr hs).after, ← hlive] at hrest
      obtain ⟨ihhistory, ihlive⟩ := ih hrest hall
      rw [List.filter_cons_of_pos hs, hhistory, hexec, ihhistory]
      exact ⟨rfl, ihlive⟩

theorem history_undisturbed {start : Credential} (on : start.enabled = true) (steps : List Step) :
    ∀ r ∈ (World.idle start).history steps, r.succeeded = true → r.Undisturbed := by
  intro r hr hs
  obtain ⟨earlier, between, hspans⟩ := exists_spans_of_mem_history hr
  have hstays : start.StaysOn r.before := by
    rw [hspans.before_eq, ← World.exec_append]
    exact World.staysOn (World.idle start) _
  exact Record.undisturbed hs (seen_staysOn_before hr) (hstays on).1

/-- Whatever calls interleave on a credential that is on, the successful ones have the same replies
and accept the same timecodes if they are made one at a time in the order of their writes, and they
leave the same credential.  The others have no effect. -/
theorem enabled_history_serializable (start : Credential) (on : start.enabled = true)
    (steps : List Step) :
    let run := World.idle start
    let done := (run.history steps).filter Record.succeeded
    let serial := run.history (oneAtATime done)
    (∀ r ∈ serial, ({ live := r.before } : Account).serve r.policy r.request =
      (r.reply, { live := r.after })) ∧
    (serial.map fun r => (r.toCall, r.reply, r.acceptedTimecode)) =
      (done.map fun r => (r.toCall, r.reply, r.acceptedTimecode)) ∧
    (run.exec (oneAtATime done)).live = (run.exec steps).live ∧
    ∀ r ∈ run.history steps, r.succeeded = false → r.after = r.before := by
  intro run done serial
  have hall := history_undisturbed on steps
  obtain ⟨hserial, hlive⟩ := (history_linked run steps).oneAtATime hall
  refine ⟨fun r hr => ?_, ?_, hlive, fun r _ => Record.after_of_not_succeeded⟩
  · rw [show serial = done.map Record.uninterrupted from hserial] at hr
    obtain ⟨r', -, rfl⟩ := List.mem_map.mp hr
    exact Record.serve_eq rfl
  · rw [show serial = done.map Record.uninterrupted from hserial, List.map_map]
    refine List.map_congr_left fun r hr => ?_
    obtain ⟨hr, hs⟩ := List.mem_filter.mp hr
    have h := hall r hr hs
    simp only [Function.comp_apply, h.reply, h.acceptedTimecode]
    rfl

/-- Two checks of one scratch code that both read before either writes: one succeeds. -/
theorem enabled_history_serializable_contended :
    let start : Credential := ⟨true, none, some "[\"AAAAAAAAAAAAAAAA\"]", 0⟩
    let check : Call := ⟨⟨OneTime.Verifier.standard, 1⟩, .checkScratch "AAAAAAAAAAAAAAAA"⟩
    let steps : List Step := [.read 0 check, .read 1 check, .finish 1, .finish 0]
    let run := World.idle start
    let done := (run.history steps).filter Record.succeeded
    let serial := run.history (oneAtATime done)
    start.enabled = true ∧ done.map Record.id = [1] ∧
    (∀ r ∈ serial, ({ live := r.before } : Account).serve r.policy r.request =
      (r.reply, { live := r.after })) ∧
    (serial.map fun r => (r.toCall, r.reply, r.acceptedTimecode)) =
      (done.map fun r => (r.toCall, r.reply, r.acceptedTimecode)) ∧
    (run.exec (oneAtATime done)).live = (run.exec steps).live ∧
    ∀ r ∈ run.history steps, r.succeeded = false → r.after = r.before := by
  intro start check steps
  exact ⟨rfl, by decide +kernel, enabled_history_serializable start rfl steps⟩

end TwoFactor
end Contestant
