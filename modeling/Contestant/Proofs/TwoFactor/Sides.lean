import Contestant.Proofs.TwoFactor.Interleaving

/-!
One-time codes and scratch codes do not meddle with each other.

The checks of one-time codes are one side of an account's requests, the checks of scratch codes and
the regenerations the other.  Both sides look at the switch and at the key, which neither writes.
Beyond that each side has a column of its own, and no request of the other side reads or writes it.
`Side.view` blanks the other column out.  A step of one side does the same to a world and to its
view, and to the view of the other side it does nothing.  So the view of a run is the run of the
side's own steps, and what the other side does in between cannot be told from it.
-/

namespace Contestant
namespace TwoFactor

inductive Side
  | oneTime
  | scratch
  deriving DecidableEq

/-- The side of a request.  Enrolments and confirmations write across both and are on neither. -/
def Request.side? : Request → Option Side
  | checkCode _ _ => some .oneTime
  | checkScratch _ | regenerate _ => some .scratch
  | begin _ _ _ | confirm _ _ => none

def Write.side? : Write → Option Side
  | advance _ _ => some .oneTime
  | replaceScratch _ _ => some .scratch
  | enroll _ _ | enable _ _ => none

/-- The credential as a side sees it, without the column of the other side. -/
def Side.view : Side → Credential → Credential
  | oneTime, c => { c with scratch := none }
  | scratch, c => { c with lastTimecode := 0 }

/-- A call reads under a number of its side. -/
def Step.Fits (sides : Nat → Side) : Step → Prop
  | read id call => call.request.side? = some (sides id)
  | finish _ => True

/-- A run of calls on the two sides, whose numbers tell the sides apart. -/
def TwoSided (sides : Nat → Side) (steps : List Step) : Prop := ∀ s ∈ steps, s.Fits sides

/-- The steps of one side; the steps of the other are deleted. -/
def ofSide (sides : Nat → Side) (side : Side) (steps : List Step) : List Step :=
  steps.filter fun s => sides s.id = side

/-- What there is to see of a finished call. -/
def Record.outcome (r : Record) : Nat × Call × Reply × Option OneTime.Timecode :=
  (r.id, r.toCall, r.reply, r.acceptedTimecode)

/-- The outcomes of one side, in the order of the writes. -/
def outcomes (sides : Nat → Side) (side : Side) (history : List Record) :
    List (Nat × Call × Reply × Option OneTime.Timecode) :=
  (history.filter fun r => sides r.id = side).map Record.outcome

/-! ## One call -/

variable {side other : Side}

theorem Side.eq_of_views {a b : Credential} (h : ∀ side : Side, side.view a = side.view b) :
    a = b := by
  have hcode := h .oneTime
  have hscratch := h .scratch
  simp only [view, Credential.mk.injEq] at hcode hscratch
  obtain ⟨henabled, hkey, -, htimecode⟩ := hcode
  obtain ⟨-, -, hscratch, -⟩ := hscratch
  cases a
  cases b
  subst henabled hkey htimecode hscratch
  rfl

theorem Write.admits_view {w : Write} (h : w.side? = some side) (c : Credential) :
    w.admits (side.view c) = w.admits c := by
  cases w with
  | advance | replaceScratch => cases h; rfl
  | enroll | enable => cases h

theorem Write.result_view {w : Write} (h : w.side? = some side) (c : Credential) :
    w.result (side.view c) = side.view (w.result c) := by
  cases w with
  | advance | replaceScratch => cases h; rfl
  | enroll | enable => cases h

theorem Write.view_result {w : Write} (h : w.side? = some side) (hother : other ≠ side)
    (c : Credential) : other.view (w.result c) = other.view c := by
  cases w with
  | advance expected new =>
    cases h
    cases other with
    | oneTime => exact absurd rfl hother
    | scratch => rfl
  | replaceScratch expected text =>
    cases h
    cases other with
    | oneTime => rfl
    | scratch => exact absurd rfl hother
  | enroll | enable => cases h

/-- A request decides from what its side sees. -/
theorem Request.decide_view {request : Request} (h : request.side? = some side) (policy : Policy)
    (seen : Credential) : request.decide policy (side.view seen) = request.decide policy seen := by
  cases request with
  | checkCode | checkScratch | regenerate => cases h; rfl
  | begin | confirm => cases h

theorem Request.side_of_attempt {request : Request} (h : request.side? = some side)
    {policy : Policy} {seen : Credential} {w : Write} {done failed : Reply}
    (hd : request.decide policy seen = .attempt w done failed) : w.side? = some side := by
  cases request with
  | checkCode code now =>
    cases h
    simp only [decide, decideCode] at hd
    split at hd
    · split at hd <;> cases hd
      rfl
    · cases hd
  | checkScratch code =>
    cases h
    simp only [decide, decideScratch] at hd
    split at hd
    · split at hd
      · cases hd
      · split at hd <;> cases hd
        rfl
    · cases hd
  | regenerate draws =>
    cases h
    simp only [decide] at hd
    split at hd <;> cases hd
    rfl
  | begin | confirm => cases h

def Flight.view (side : Side) (f : Flight) : Flight := { f with seen := side.view f.seen }

namespace Record

def view (side : Side) (r : Record) : Record :=
  { r with seen := side.view r.seen, before := side.view r.before }

/-- A call goes on the view of its side as it goes on the whole, and the other side sees nothing
of it. -/
structure Confined (side : Side) (r : Record) : Prop where
  reply : (r.view side).reply = r.reply
  after : (r.view side).after = side.view r.after
  others : ∀ other ≠ side, other.view r.after = other.view r.before

theorem confined {r : Record} (h : r.request.side? = some side) : r.Confined side := by
  have hdecision : (r.view side).decision = r.decision := Request.decide_view h r.policy r.seen
  cases hd : r.decision with
  | reply reply =>
    obtain ⟨hreply, hafter⟩ := served_of_reply hd
    obtain ⟨hreply', hafter'⟩ := served_of_reply (hdecision.trans hd)
    refine ⟨hreply'.trans hreply.symm, ?_, fun other _ => ?_⟩
    · rw [hafter', hafter]
      rfl
    · rw [hafter]
  | attempt w done failed =>
    have hw : w.side? = some side := Request.side_of_attempt h hd
    -- The condition of a write names only its own column, so the view settles it as the whole does.
    have hadmits : w.admits (r.view side).before = w.admits r.before := Write.admits_view hw _
    cases ha : w.admits r.before with
    | true =>
      obtain ⟨hreply, hafter⟩ := served_of_admits hd ha
      obtain ⟨hreply', hafter'⟩ := served_of_admits (hdecision.trans hd) (hadmits.trans ha)
      refine ⟨hreply'.trans hreply.symm, ?_, fun other hother => ?_⟩
      · rw [hafter', hafter]
        exact Write.result_view hw r.before
      · rw [hafter]
        exact Write.view_result hw hother r.before
    | false =>
      obtain ⟨hreply, hafter⟩ := served_of_not_admits hd ha
      obtain ⟨hreply', hafter'⟩ := served_of_not_admits (hdecision.trans hd) (hadmits.trans ha)
      refine ⟨hreply'.trans hreply.symm, ?_, fun other _ => ?_⟩
      · rw [hafter', hafter]
        rfl
      · rw [hafter]

theorem acceptedTimecode_of_scratch {r : Record} (h : r.request.side? = some .scratch) :
    r.acceptedTimecode = none := by
  refine acceptedTimecode_of_not_codeAccepted ?_
  unfold codeAccepted
  cases hrequest : r.request with
  | checkScratch | regenerate => rfl
  | checkCode | begin | confirm =>
    rw [hrequest] at h
    cases h

theorem outcome_view {r : Record} (h : r.request.side? = some side) :
    (r.view side).outcome = r.outcome := by
  have hconfined := confined h
  have haccepted : (r.view side).acceptedTimecode = r.acceptedTimecode := by
    cases side with
    | oneTime =>
      rw [acceptedTimecode_eq, acceptedTimecode_eq, hconfined.after]
      simp only [codeAccepted, hconfined.reply]
      rfl
    | scratch => rw [acceptedTimecode_of_scratch h, acceptedTimecode_of_scratch (r := r.view _) h]
  simp only [outcome, hconfined.reply, haccepted]
  rfl

end Record

/-! ## One step -/

variable {sides : Nat → Side}

theorem outcomes_append (a b : List Record) :
    outcomes sides side (a ++ b) = outcomes sides side a ++ outcomes sides side b := by
  simp only [outcomes, List.filter_append, List.map_append]

theorem outcomes_singleton {r : Record} (hid : sides r.id = side) :
    outcomes sides side [r] = [r.outcome] := by
  simp only [outcomes, List.filter_cons, hid, decide_true, if_true, List.filter_nil,
    List.map_cons, List.map_nil]

theorem outcomes_singleton_other {r : Record} (hid : sides r.id ≠ side) :
    outcomes sides side [r] = [] := by
  simp only [outcomes, List.filter_cons, hid, decide_false, Bool.false_eq_true, if_false,
    List.filter_nil, List.map_nil]

namespace World

/-- The world as a side sees it: the calls of the side, and its view of all credentials. -/
def view (sides : Nat → Side) (side : Side) (w : World) : World where
  live := side.view w.live
  flights id := if sides id = side then (w.flights id).map (Flight.view side) else none

/-- Each call in flight is on the side that its number belongs to. -/
def Divided (sides : Nat → Side) (w : World) : Prop :=
  ∀ id flight, w.flights id = some flight → flight.request.side? = some (sides id)

/-- The call that finishes with a step, if one does. -/
def finished (w : World) : Step → List Record
  | .read _ _ => []
  | .finish id => (w.record id).toList

theorem history_cons (w : World) (s : Step) (rest : List Step) :
    w.history (s :: rest) = w.finished s ++ (w.next s).history rest := by
  cases s <;> rfl

theorem Divided.next {w : World} (hw : w.Divided sides) {s : Step} (hs : s.Fits sides) :
    (w.next s).Divided sides := by
  intro i flight hflight
  cases s with
  | read id call =>
    simp only [World.next] at hflight
    split at hflight
    next hi =>
      cases hflight
      rw [hi]
      exact hs
    next => exact hw i flight hflight
  | finish id =>
    simp only [World.next] at hflight
    split at hflight
    next => cases hflight
    next => exact hw i flight hflight

/-- A call that finishes is on the side of its number and meets the live credential. -/
theorem Divided.record {w : World} (hw : w.Divided sides) {id : Nat} {r : Record}
    (hr : w.record id = some r) :
    r.id = id ∧ r.request.side? = some (sides id) ∧ r.before = w.live := by
  simp only [World.record, Option.map_eq_some_iff] at hr
  obtain ⟨flight, hflight, rfl⟩ := hr
  exact ⟨rfl, hw id flight hflight, rfl⟩

theorem record_view {w : World} {id : Nat} (hid : sides id = side) :
    (w.view sides side).record id = (w.record id).map (Record.view side) := by
  simp only [record, view, hid, if_true, Option.map_map]
  rfl

theorem next_flights_of_ne (w : World) {s : Step} {i : Nat} (h : i ≠ s.id) :
    (w.next s).flights i = w.flights i := by
  cases s with
  | read id call => exact if_neg (c := i = id) h
  | finish id => exact if_neg (c := i = id) h

/-- A side sees a step of its own as the same step. -/
theorem view_next {w : World} (hw : w.Divided sides) {s : Step} (hid : sides s.id = side) :
    (w.next s).view sides side = (w.view sides side).next s := by
  have hlive : side.view (w.next s).live = ((w.view sides side).next s).live := by
    cases s with
    | read id call => rfl
    | finish id =>
      change sides id = side at hid
      rw [next_finish_live, next_finish_live, record_view hid]
      cases hr : w.record id with
      | none => rfl
      | some r =>
        obtain ⟨-, hside, -⟩ := hw.record hr
        rw [hid] at hside
        exact (Record.confined hside).after.symm
  have hflights : ((w.next s).view sides side).flights =
      ((w.view sides side).next s).flights := by
    funext i
    by_cases hi : i = s.id
    · subst hi
      cases s with
      | read id call =>
        change sides id = side at hid
        simp only [view, next, Step.id, hid, if_true]
        rfl
      | finish id => simp only [view, next, Step.id, if_true, Option.map_none, ite_self]
    · rw [next_flights_of_ne _ hi]
      simp only [view, next_flights_of_ne _ hi]
  exact congrArg₂ World.mk hlive hflights

/-- A side sees nothing of a step of the other side. -/
theorem view_next_other {w : World} (hw : w.Divided sides) {s : Step} (hid : sides s.id ≠ side) :
    (w.next s).view sides side = w.view sides side := by
  have hlive : side.view (w.next s).live = side.view w.live := by
    cases s with
    | read id call => rfl
    | finish id =>
      rw [next_finish_live]
      cases hr : w.record id with
      | none => rfl
      | some r =>
        obtain ⟨-, hside, hbefore⟩ := hw.record hr
        rw [Option.elim_some, (Record.confined hside).others side (Ne.symm hid), hbefore]
  -- A step touches the flight of its own number only, which the view leaves out.
  have hflights : ((w.next s).view sides side).flights = (w.view sides side).flights := by
    funext i
    by_cases hi : sides i = side
    · have hne : i ≠ s.id := fun h => hid (h ▸ hi)
      simp only [view, next_flights_of_ne w hne]
    · simp only [view, if_neg hi]
  exact congrArg₂ World.mk hlive hflights

theorem outcomes_finished {w : World} (hw : w.Divided sides) {s : Step} (hid : sides s.id = side) :
    outcomes sides side ((w.view sides side).finished s) = outcomes sides side (w.finished s) := by
  cases s with
  | read id call => rfl
  | finish id =>
    simp only [finished, record_view (show sides id = side from hid)]
    cases hr : w.record id with
    | none => rfl
    | some r =>
      obtain ⟨rfl, hside, -⟩ := hw.record hr
      rw [show sides r.id = side from hid] at hside
      rw [Option.map_some, Option.toList_some, Option.toList_some, outcomes_singleton hid,
        outcomes_singleton (r := r.view side) hid, Record.outcome_view hside]

theorem outcomes_finished_other {w : World} (hw : w.Divided sides) {s : Step}
    (hid : sides s.id ≠ side) : outcomes sides side (w.finished s) = [] := by
  cases s with
  | read id call => rfl
  | finish id =>
    simp only [finished]
    cases hr : w.record id with
    | none => rfl
    | some r =>
      obtain ⟨rfl, -, -⟩ := hw.record hr
      exact outcomes_singleton_other hid

/-! ## A run -/

/-- A side sees a run as the run of its own steps. -/
theorem view_run (side : Side) {w : World} (hw : w.Divided sides) {steps : List Step}
    (hsteps : TwoSided sides steps) :
    (w.exec steps).view sides side = (w.view sides side).exec (ofSide sides side steps) ∧
      outcomes sides side (w.history steps) =
        outcomes sides side ((w.view sides side).history (ofSide sides side steps)) := by
  induction steps generalizing w with
  | nil => exact ⟨rfl, rfl⟩
  | cons s rest ih =>
    -- That the world is divided is what carries the induction: it fixes the side of each call that
    -- finishes.
    obtain ⟨hs, hrest⟩ := List.forall_mem_cons.mp hsteps
    obtain ⟨hexec, houtcomes⟩ := ih (hw.next hs) hrest
    rw [exec_cons, hexec, history_cons, outcomes_append, houtcomes]
    by_cases hid : sides s.id = side
    · have hcons : ofSide sides side (s :: rest) = s :: ofSide sides side rest :=
        List.filter_cons_of_pos (decide_eq_true hid)
      rw [hcons, exec_cons, history_cons, outcomes_append, view_next hw hid,
        outcomes_finished hw hid]
      exact ⟨rfl, rfl⟩
    · have hcons : ofSide sides side (s :: rest) = ofSide sides side rest :=
        List.filter_cons_of_neg (by simpa using hid)
      rw [hcons, view_next_other hw hid, outcomes_finished_other hw hid]
      exact ⟨rfl, rfl⟩

end World

/-- Two runs with the same steps of a side look the same to it. -/
theorem view_eq_of_ofSide_eq (start : Credential) {a b : List Step} (ha : TwoSided sides a)
    (hb : TwoSided sides b) (h : ofSide sides side a = ofSide sides side b) :
    side.view ((World.idle start).exec a).live = side.view ((World.idle start).exec b).live ∧
      outcomes sides side ((World.idle start).history a) =
        outcomes sides side ((World.idle start).history b) := by
  have hidle : (World.idle start).Divided sides := fun id flight hflight => nomatch hflight
  obtain ⟨hexeca, houtcomesa⟩ := World.view_run side hidle ha
  obtain ⟨hexecb, houtcomesb⟩ := World.view_run side hidle hb
  rw [houtcomesa, houtcomesb, h]
  refine ⟨?_, rfl⟩
  have hview : ((World.idle start).exec a).view sides side =
      ((World.idle start).exec b).view sides side := by
    rw [hexeca, hexecb, h]
  exact congrArg World.live hview

theorem TwoSided.ofSide {steps : List Step} (h : TwoSided sides steps) (side : Side) :
    TwoSided sides (ofSide sides side steps) :=
  fun s hs => h s (List.mem_filter.mp hs).1

theorem ofSide_ofSide (side : Side) (steps : List Step) :
    ofSide sides side (ofSide sides side steps) = ofSide sides side steps := by
  simp only [ofSide, List.filter_filter, Bool.and_self]

/-- Whatever credential a run of the two sides starts from and however it interleaves: without the
steps of one side, every call of the other has the same outcome, and the other's column ends up
the same.  So runs that differ only in how they interleave the two sides have the same outcomes and
leave the same credential. -/
theorem sides_do_not_interfere (start : Credential) (sides : Nat → Side) (steps : List Step)
    (h : TwoSided sides steps) :
    let run := World.idle start
    (∀ side,
      outcomes sides side (run.history (ofSide sides side steps)) =
        outcomes sides side (run.history steps) ∧
      side.view (run.exec (ofSide sides side steps)).live = side.view (run.exec steps).live) ∧
    ∀ other, TwoSided sides other →
      (∀ side, ofSide sides side other = ofSide sides side steps) →
        (∀ side, outcomes sides side (run.history other) =
          outcomes sides side (run.history steps)) ∧
        (run.exec other).live = (run.exec steps).live := by
  intro run
  refine ⟨fun side => ?_, fun other hother hsame => ?_⟩
  · obtain ⟨hview, houtcomes⟩ :=
      view_eq_of_ofSide_eq start (h.ofSide side) h (ofSide_ofSide side steps)
    exact ⟨houtcomes, hview⟩
  · refine ⟨fun side => (view_eq_of_ofSide_eq start hother h (hsame side)).2, ?_⟩
    exact Side.eq_of_views fun side => (view_eq_of_ofSide_eq start hother h (hsame side)).1

/-- A one-time code and a scratch code that are both accepted, the one from the read to the write
of the other. -/
theorem sides_do_not_interfere_nested :
    let start : Credential :=
      ⟨true, some "GEZDGNBVGY3TQOJQGEZDGNBVGY3TQOJQ", some "[\"AAAAAAAAAAAAAAAA\"]", 0⟩
    let policy : Policy := ⟨OneTime.Verifier.standard, 1⟩
    let sides : Nat → Side := fun id => if id = 0 then .oneTime else .scratch
    let steps : List Step :=
      [.read 0 ⟨policy, .checkCode "287082" ⟨59, 0, by decide, by decide, by decide⟩⟩,
        .read 1 ⟨policy, .checkScratch "AAAAAAAAAAAAAAAA"⟩, .finish 1, .finish 0]
    let run := World.idle start
    TwoSided sides steps ∧
    (run.history steps).map Record.reply = [.accepted true, .accepted true] ∧
    (∀ side,
      outcomes sides side (run.history (ofSide sides side steps)) =
        outcomes sides side (run.history steps) ∧
      side.view (run.exec (ofSide sides side steps)).live = side.view (run.exec steps).live) ∧
    ∀ other, TwoSided sides other →
      (∀ side, ofSide sides side other = ofSide sides side steps) →
        (∀ side, outcomes sides side (run.history other) =
          outcomes sides side (run.history steps)) ∧
        (run.exec other).live = (run.exec steps).live := by
  intro start policy sides steps
  have hsteps : TwoSided sides steps := by
    simp only [TwoSided, steps, List.forall_mem_cons, Step.Fits, Request.side?, sides]
    simp
  exact ⟨hsteps, by decide +kernel, sides_do_not_interfere start sides steps hsteps⟩

end TwoFactor
end Contestant
