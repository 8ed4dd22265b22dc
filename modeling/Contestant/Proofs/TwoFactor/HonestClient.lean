import Contestant.Proofs.OneTime.Key
import Contestant.Proofs.OneTime.Window
import Contestant.Proofs.Scratch.StoredText
import Contestant.Proofs.Scratch.Typed
import Contestant.Proofs.TwoFactor.Serializability
import Mathlib.Data.List.Perm.Subperm

/-!
What an enrolment issues works for its owner.

An authenticator shows the code of a timecode, and the verifier may take it for the code of an
earlier one that it happens to be the code of as well.  So the last timecode is not known after an
acceptance, but it never comes after the timecodes that the owner has used, and this is all that
the next acceptance needs.  Scratch codes have no part in this: `Credential.Keeps` says what holds
between visits of either kind.
-/

namespace Contestant
namespace TwoFactor

open OneTime

/-- What an owner presents: the code that the authenticator shows for a timecode, at some instant,
or a scratch code in the form in which it is typed. -/
inductive Visit
  | oneTime (timecode : Timecode) (now : Instant)
  | scratch (code typed : String)

namespace Visit

def timecode? : Visit → Option Timecode
  | oneTime timecode _ => some timecode
  | scratch _ _ => none

def scratchCode? : Visit → Option String
  | oneTime _ _ => none
  | scratch code _ => some code

/-- The request that the owner of a key makes. -/
def request (policy : Policy) (key : String) : Visit → Except InputFault Request
  | oneTime timecode now => (policy.verifier.generate key timecode).map (.checkCode · now)
  | scratch _ typed => .ok (.checkScratch typed)

/-- The clocks differ by no more than is tolerated, and what is typed spells the scratch code. -/
def Proper (policy : Policy) : Visit → Prop
  | oneTime timecode now => policy.verifier.Reaches policy.tolerance now timecode
  | scratch code typed => Scratch.Spells typed code

end Visit

/-- One visit after the other, with the replies. -/
def Account.attend (policy : Policy) (key : String) (a : Account) :
    List Visit → Except InputFault (List Reply × Account)
  | [] => .ok ([], a)
  | visit :: rest => do
    let request ← visit.request policy key
    let (reply, next) := a.serve policy request
    let (replies, last) ← next.attend policy key rest
    return (reply :: replies, last)

theorem Account.attend_cons {policy : Policy} {key : String} {a next last : Account}
    {visit : Visit} {rest : List Visit} {request : Request} {reply : Reply} {replies : List Reply}
    (hrequest : visit.request policy key = .ok request)
    (hserve : a.serve policy request = (reply, next))
    (hrest : next.attend policy key rest = .ok (replies, last)) :
    a.attend policy key (visit :: rest) = .ok (reply :: replies, last) := by
  simp only [attend, hrequest, bind, Except.bind, hserve, hrest]
  rfl

/-- A credential is on or off with this key, its last timecode is no later than one that the owner
has used, and these are its unused scratch codes. -/
structure Credential.Keeps (on : Bool) (key : String) (used : Timecode) (codes : List String)
    (c : Credential) : Prop where
  enabled_eq : c.enabled = on
  key_eq : c.key = some key
  lastTimecode_le : c.lastTimecode ≤ used
  unused : ∃ unused, Scratch.Codes.parse c.scratch = .ok unused ∧ unused.texts = codes

variable {policy : Policy} {c : Credential} {key : String} {bytes : List UInt8}
  {used timecode : Timecode} {codes : List String} {now : Instant}

/-- A request that nothing interrupts. -/
theorem Success.serve_eq {after : Credential} {request : Request} {reply : Reply}
    (h : Success policy c c request reply after) :
    ({ live := c } : Account).serve policy request = (reply, { live := after }) := by
  let r : Record := { policy, request, seen := c, id := 0, before := c }
  obtain ⟨hreply, hafter⟩ := Record.reply_after_of_success (r := r) h
  rw [← hreply, ← hafter]
  exact Record.serve_eq (r := r) rfl

/-- What an enrolment stores, it shows. -/
theorem keeps_begun {off : Credential} (hoff : off.enabled = false) (policy : Policy)
    (username : String) (random : Vector UInt8 20) (draws : List Scratch.Draw) :
    let issued := Request.enrollment policy username random draws
    ∃ begun, ({ live := off } : Account).serve policy (.begin username random draws) =
        (.enrolled issued, { live := begun }) ∧
      begun.Keeps false issued.key 0 issued.scratchCodes := by
  intro issued
  have hsuccess : Success policy off off (.begin username random draws) (.enrolled issued) _ :=
    .begin hoff
  refine ⟨_, hsuccess.serve_eq, hoff, rfl, Int64.le_refl 0, _, ?_, rfl⟩
  exact Scratch.Codes.parse_toJson _

namespace Credential.Keeps

variable {on : Bool}

/-- The code of a timecode that has not been used is accepted, at this timecode or before it. -/
theorem verify_generated (h : c.Keeps on key used codes) (hbytes : decodeKey key = .ok bytes)
    (hused : 0 ≤ used) (hlater : used < timecode)
    (hreaches : policy.verifier.Reaches policy.tolerance now timecode) :
    ∃ code, policy.verifier.generate key timecode = .ok code ∧
      ∃ accepted next, accepted ≤ timecode ∧ c.lastTimecode < accepted ∧
        policy.verifier.verify (c.state policy.tolerance) code now = .accepted accepted next := by
  have hpositive : 0 ≤ timecode := Int64.le_of_lt (Int64.lt_of_le_of_lt hused hlater)
  have hlast : c.lastTimecode < timecode := Int64.lt_of_le_of_lt h.lastTimecode_le hlater
  refine ⟨_, Verifier.generate_eq_ok hbytes hpositive, ?_⟩
  have hsecret : (c.state policy.tolerance).secret.map decodeKey = some (.ok bytes) := by
    rw [Credential.state, h.key_eq, Option.map_some, hbytes]
  have hwindow : timecode ∈ Verifier.window (c.state policy.tolerance)
      (policy.verifier.timecode now) :=
    Verifier.mem_window_iff.mpr ⟨hpositive, hlast, hreaches⟩
  obtain ⟨accepted, hle, hmoves, hverify⟩ := Verifier.verify_codeAt hsecret hwindow
  exact ⟨accepted, _, hle, hmoves, hverify⟩

theorem confirm (h : c.Keeps false key used codes) (hbytes : decodeKey key = .ok bytes)
    (hused : 0 ≤ used) (hlater : used < timecode)
    (hreaches : policy.verifier.Reaches policy.tolerance now timecode) :
    ∃ code after, policy.verifier.generate key timecode = .ok code ∧
      ({ live := c } : Account).serve policy (.confirm code now) =
        (.accepted true, { live := after }) ∧
      after.Keeps true key timecode codes := by
  obtain ⟨code, hcode, accepted, next, hle, hmoves, hverify⟩ :=
    h.verify_generated hbytes hused hlater hreaches
  have hpending : c.key.isSome = true := by rw [h.key_eq, Option.isSome_some]
  have hsuccess : Success policy c c (.confirm code now) (.accepted true) _ :=
    .confirm h.enabled_eq hpending hverify h.enabled_eq hpending rfl hmoves
  exact ⟨code, _, hcode, hsuccess.serve_eq, rfl, h.key_eq, hle, h.unused⟩

theorem checkCode (h : c.Keeps true key used codes) (hbytes : decodeKey key = .ok bytes)
    (hused : 0 ≤ used) (hlater : used < timecode)
    (hreaches : policy.verifier.Reaches policy.tolerance now timecode) :
    ∃ code after, policy.verifier.generate key timecode = .ok code ∧
      ({ live := c } : Account).serve policy (.checkCode code now) =
        (.accepted true, { live := after }) ∧
      after.Keeps true key timecode codes := by
  obtain ⟨code, hcode, accepted, next, hle, hmoves, hverify⟩ :=
    h.verify_generated hbytes hused hlater hreaches
  have hsuccess : Success policy c c (.checkCode code now) (.accepted true) _ :=
    .checkCode h.enabled_eq hverify rfl hmoves
  exact ⟨code, _, hcode, hsuccess.serve_eq, h.enabled_eq, h.key_eq, hle, h.unused⟩

theorem checkScratch (h : c.Keeps true key used codes) {code typed : String} (hcode : code ∈ codes)
    (hspells : Scratch.Spells typed code) :
    ∃ after, ({ live := c } : Account).serve policy (.checkScratch typed) =
        (.accepted true, { live := after }) ∧
      after.Keeps true key used (codes.erase code) := by
  obtain ⟨unused, hparsed, htexts⟩ := h.unused
  rw [← htexts] at hcode
  obtain ⟨issued, -, rfl⟩ := List.mem_map.mp hcode
  have hnormal := issued.normalForm_of_spells hspells
  rw [← hnormal] at hcode
  obtain ⟨rest, hconsume, hrest⟩ := Scratch.Codes.exists_consume_of_mem hcode
  have hsuccess : Success policy c c (.checkScratch typed) (.accepted true) _ :=
    .checkScratch h.enabled_eq hparsed hconsume rfl
  refine ⟨_, hsuccess.serve_eq, h.enabled_eq, h.key_eq, h.lastTimecode_le, rest, ?_, ?_⟩
  · exact Scratch.Codes.parse_toJson rest
  · rw [hrest, hnormal, htexts]

theorem attend {visits : List Visit} (h : c.Keeps true key used codes)
    (hbytes : decodeKey key = .ok bytes) (hused : 0 ≤ used)
    (hproper : ∀ visit ∈ visits, visit.Proper policy)
    (hlater : (used :: visits.filterMap Visit.timecode?).Pairwise (· < ·))
    (honce : (visits.filterMap Visit.scratchCode?).Subperm codes) :
    ∃ last : Credential,
      ({ live := c } : Account).attend policy key visits =
        .ok (List.replicate visits.length (.accepted true), { live := last }) ∧
      last.Keeps true key ((visits.filterMap Visit.timecode?).getLastD used)
        (codes.diff (visits.filterMap Visit.scratchCode?)) := by
  induction visits generalizing c used codes with
  | nil => exact ⟨c, rfl, h⟩
  | cons visit rest ih =>
    obtain ⟨hvisit, hrest⟩ := List.forall_mem_cons.mp hproper
    cases visit with
    | oneTime timecode now =>
      simp only [List.filterMap_cons, Visit.timecode?, Visit.scratchCode?] at hlater honce ⊢
      have hnext : used < timecode := List.rel_of_pairwise_cons hlater List.mem_cons_self
      have htimecode : 0 ≤ timecode := Int64.le_of_lt (Int64.lt_of_le_of_lt hused hnext)
      obtain ⟨code, after, hgenerate, hserve, hafter⟩ := h.checkCode hbytes hused hnext hvisit
      obtain ⟨last, hattend, hlast⟩ := ih hafter htimecode hrest hlater.of_cons honce
      refine ⟨last, Account.attend_cons ?_ hserve hattend, ?_⟩
      · rw [Visit.request, hgenerate, Except.map]
      · rw [List.getLastD_cons]
        exact hlast
    | scratch code typed =>
      simp only [List.filterMap_cons, Visit.timecode?, Visit.scratchCode?] at hlater honce ⊢
      have hcode : code ∈ codes := honce.subset List.mem_cons_self
      have honce' := honce.erase code
      rw [List.erase_cons_head] at honce'
      obtain ⟨after, hserve, hafter⟩ := h.checkScratch hcode hvisit
      obtain ⟨last, hattend, hlast⟩ := ih hafter hused hrest hlater honce'
      refine ⟨last, Account.attend_cons rfl hserve hattend, ?_⟩
      rw [List.diff_cons]
      exact hlast

end Credential.Keeps

/-! ## From an enrolment on -/

/-- What an enrolment shows works for its owner: the first code confirms it, and after that every
code of a later timecode is accepted, and every scratch code once, in whatever order they come.
The last timecode is then no later than the last one that was used, and the stored scratch codes
are those not presented, in the order of issue; of a code that was issued twice, the first copy is
the one that is used first. -/
theorem issued_credentials_work (policy : Policy) {off : Credential} (hoff : off.enabled = false)
    (username : String) (random : Vector UInt8 20) (draws : List Scratch.Draw)
    {first : Timecode} {now : Instant} (hfirst : 1 ≤ first)
    (hreaches : policy.verifier.Reaches policy.tolerance now first)
    {visits : List Visit} (hproper : ∀ visit ∈ visits, visit.Proper policy)
    (hlater : (first :: visits.filterMap Visit.timecode?).Pairwise (· < ·))
    (honce : (visits.filterMap Visit.scratchCode?).Subperm
      (Request.enrollment policy username random draws).scratchCodes) :
    let issued := Request.enrollment policy username random draws
    let begun := ({ live := off } : Account).serve policy (.begin username random draws)
    begun.1 = .enrolled issued ∧
    ∃ code, policy.verifier.generate issued.key first = .ok code ∧
      let confirmed := begun.2.serve policy (.confirm code now)
      confirmed.1 = .accepted true ∧
      ∃ last : Credential,
        confirmed.2.attend policy issued.key visits =
          .ok (List.replicate visits.length (.accepted true), { live := last }) ∧
        last.lastTimecode ≤ (visits.filterMap Visit.timecode?).getLastD first ∧
        ∃ unused, Scratch.Codes.parse last.scratch = .ok unused ∧
          unused.texts = issued.scratchCodes.diff (visits.filterMap Visit.scratchCode?) := by
  intro issued begun
  have hbytes : decodeKey issued.key = .ok random.toList := decodeKey_freshKey random
  have hpositive : (0 : Timecode) < first := Int64.lt_of_lt_of_le (by decide) hfirst
  obtain ⟨pending, hbegun, hpending⟩ := keeps_begun hoff policy username random draws
  obtain ⟨code, on, hcode, hconfirm, hon⟩ :=
    hpending.confirm hbytes (Int64.le_refl 0) hpositive hreaches
  obtain ⟨last, hattend, hlast⟩ :=
    hon.attend hbytes (Int64.le_of_lt hpositive) hproper hlater honce
  rw [show begun = (.enrolled issued, { live := pending }) from hbegun]
  refine ⟨rfl, code, hcode, ?_⟩
  rw [hconfirm]
  exact ⟨rfl, last, hattend, hlast.lastTimecode_le, hlast.unused⟩

/-- The second scratch code is typed in mixed case, and then the authenticator's clock is one step
ahead. -/
theorem issued_credentials_work_clock_ahead :
    let policy : Policy := ⟨Verifier.standard, 1⟩
    let random : Vector UInt8 20 := Vector.replicate 20 0
    let draws : List Scratch.Draw := [Vector.replicate 16 0, Vector.replicate 16 1]
    let now : Instant := ⟨59, 0, by decide, by decide, by decide⟩
    let later : Instant := ⟨89, 0, by decide, by decide, by decide⟩
    let visits : List Visit :=
      [.scratch "BBBBBBBBBBBBBBBB" " bbbbbbbbBBBBBBBB\n", .oneTime 3 later]
    let issued := Request.enrollment policy "ada" random draws
    let begun := ({ live := .fresh } : Account).serve policy (.begin "ada" random draws)
    Credential.fresh.enabled = false ∧ (1 : Timecode) ≤ 1 ∧
    policy.verifier.Reaches policy.tolerance now 1 ∧ (∀ visit ∈ visits, visit.Proper policy) ∧
    (1 :: visits.filterMap Visit.timecode?).Pairwise (· < ·) ∧
    (visits.filterMap Visit.scratchCode?).Subperm issued.scratchCodes ∧
    begun.1 = .enrolled issued ∧
    ∃ code, policy.verifier.generate issued.key 1 = .ok code ∧
      let confirmed := begun.2.serve policy (.confirm code now)
      confirmed.1 = .accepted true ∧
      ∃ last : Credential,
        confirmed.2.attend policy issued.key visits =
          .ok (List.replicate visits.length (.accepted true), { live := last }) ∧
        last.lastTimecode ≤ (visits.filterMap Visit.timecode?).getLastD 1 ∧
        ∃ unused, Scratch.Codes.parse last.scratch = .ok unused ∧
          unused.texts = issued.scratchCodes.diff (visits.filterMap Visit.scratchCode?) := by
  intro policy random draws now later visits issued begun
  have hoff : Credential.fresh.enabled = false := rfl
  have hfirst : (1 : Timecode) ≤ 1 := by decide
  have hreaches : policy.verifier.Reaches policy.tolerance now 1 := by
    unfold Verifier.Reaches
    decide
  have hproper : ∀ visit ∈ visits, visit.Proper policy := by
    refine List.forall_mem_cons.mpr ⟨?spelling, List.forall_mem_singleton.mpr ?clock⟩
    case spelling => exact ⟨[' '], "bbbbbbbbBBBBBBBB".toList, ['\n'], rfl, rfl, rfl, by decide⟩
    case clock =>
      show policy.verifier.Reaches policy.tolerance later 3
      unfold Verifier.Reaches
      decide
  have hlater : (1 :: visits.filterMap Visit.timecode?).Pairwise (· < ·) := by decide
  have honce : (visits.filterMap Visit.scratchCode?).Subperm issued.scratchCodes := by
    decide +kernel
  exact ⟨hoff, hfirst, hreaches, hproper, hlater, honce,
    issued_credentials_work policy hoff "ada" random draws hfirst hreaches hproper hlater honce⟩

end TwoFactor
end Contestant
