import Contestant.Proofs.OneTime.Key
import Contestant.Proofs.OneTime.Window
import Contestant.Proofs.Scratch.StoredText
import Contestant.Proofs.TwoFactor.Interleaving

/-!
What is stored of a credential can always be used.

Keys and scratch codes are stored by enrolments, by regenerations and by the checks that take a
scratch code away, and each of them stores what every later call can read.  This needs nothing of
what a call has seen: a code that is taken away leaves codes behind that were read from a text, but
the text that is stored is written anew.  A confirmation writes only where there is a key, so a
credential that is on has one.  All that a call sees of a new account's credential is some live
credential of the past, so verification finds a key that it can decode, and a scratch code check
finds codes that it can read.
-/

namespace Contestant
namespace TwoFactor

open OneTime Scratch

/-- A key is a text of the length and the symbols of one and stands for twenty bytes. -/
structure UsableKey (key : String) : Prop where
  wellFormed : WellFormedKey key
  decodes : ∃ bytes, decodeKey key = .ok bytes ∧ bytes.length = 20

/-- A text of scratch codes reads as some codes and is the one in which they are stored. -/
def UsableText (text : String) : Prop :=
  ∃ codes, Codes.parse (some text) = .ok codes ∧ codes.toJson = text

/-- Whatever is stored can be used, and a credential that is on has a key. -/
structure Credential.Usable (c : Credential) : Prop where
  key : ∀ key ∈ c.key, UsableKey key
  scratch : ∀ text ∈ c.scratch, UsableText text
  keyed : c.enabled = true → c.key.isSome = true

theorem usableKey_freshKey (random : Vector UInt8 20) : UsableKey (freshKey random) :=
  ⟨wellFormedKey_freshKey random, _, decodeKey_freshKey random, Vector.length_toList⟩

theorem usableText_toJson (codes : Codes) : UsableText codes.toJson :=
  ⟨codes, Codes.parse_toJson codes, rfl⟩

/-! ## What a call stores -/

theorem Credential.fresh_usable : Credential.fresh.Usable where
  key _ h := absurd h (Option.not_mem_none _)
  scratch _ h := absurd h (Option.not_mem_none _)
  keyed on := by cases on

theorem Success.usable {policy : Policy} {seen before after : Credential} {request : Request}
    {reply : Reply} (h : Success policy seen before request reply after)
    (hbefore : before.Usable) : after.Usable := by
  cases h with
  | checkCode => exact ⟨hbefore.key, hbefore.scratch, hbefore.keyed⟩
  | @checkScratch code codes rest =>
    refine ⟨hbefore.key, fun text htext => ?_, hbefore.keyed⟩
    rw [← Option.some.inj htext]
    exact usableText_toJson rest
  | @begin username random draws off =>
    refine ⟨fun key hkey => ?_, fun text htext => ?_, fun _ => rfl⟩
    · rw [← Option.some.inj hkey]
      exact usableKey_freshKey random
    · rw [← Option.some.inj htext]
      exact usableText_toJson (Codes.ofDraws draws)
  | confirm off pending proved stillOff stillPending =>
    exact ⟨hbefore.key, hbefore.scratch, fun _ => stillPending⟩
  | @regenerate draws =>
    refine ⟨hbefore.key, fun text htext => ?_, hbefore.keyed⟩
    rw [← Option.some.inj htext]
    exact usableText_toJson (Codes.ofDraws draws)

theorem Record.usable (r : Record) (hbefore : r.before.Usable) : r.after.Usable := by
  rcases r.success_or_unchanged with h | ⟨-, hafter⟩
  · exact h.usable hbefore
  · rw [hafter]
    exact hbefore

theorem World.usable {start : Credential} (hstart : start.Usable) (steps : List Step) :
    ((World.idle start).exec steps).live.Usable :=
  (history_linked (World.idle start) steps).rel (R := fun a b => a.Usable → b.Usable)
    (fun _ => id) (fun hab hbc ha => hbc (hab ha)) (fun r _ => r.usable) hstart

/-! ## What a call finds -/

namespace Credential.Usable

variable {c : Credential}

theorem verify_ne_malformedSecret (h : c.Usable) (hkey : c.key.isSome = true) (policy : Policy)
    (code : String) (now : Instant) :
    policy.verifier.verify (c.state policy.tolerance) code now ≠ .rejected .malformedSecret := by
  obtain ⟨key, hkey⟩ := Option.isSome_iff_exists.mp hkey
  obtain ⟨bytes, hdecodes, -⟩ := (h.key key hkey).decodes
  have hdecodes' : (c.state policy.tolerance).secret.map decodeKey = some (.ok bytes) := by
    rw [Credential.state, hkey, Option.map_some, hdecodes]
  exact Verifier.verify_ne_malformedSecret hdecodes' code now

theorem exists_parse_eq_ok (h : c.Usable) : ∃ codes, Codes.parse c.scratch = .ok codes := by
  cases hscratch : c.scratch with
  | none => exact ⟨⟨[]⟩, rfl⟩
  | some text =>
    obtain ⟨codes, hparse, -⟩ := h.scratch text hscratch
    exact ⟨codes, hparse⟩

end Credential.Usable

/-- From a new account on, whatever calls are made, however they interleave and whatever is drawn:
the stored key and the stored scratch codes are missing or can be used, and there is a key once the
credential is on.  The same holds of what each call has seen, so a verification never ends for want
of a key, and a scratch code check always finds codes that it can read. -/
theorem stored_credential_usable (steps : List Step) :
    let world := (World.idle Credential.fresh).exec steps
    world.live.Usable ∧
    ∀ id flight, world.flights id = some flight →
      flight.seen.Usable ∧
      (∀ code now,
        flight.request = .checkCode code now ∧ flight.seen.enabled = true ∨
          flight.request = .confirm code now ∧ flight.seen.key.isSome = true →
        flight.policy.verifier.verify (flight.seen.state flight.policy.tolerance) code now ≠
          .rejected .malformedSecret) ∧
      ∀ code, flight.request = .checkScratch code →
        ∃ codes, Codes.parse flight.seen.scratch = .ok codes := by
  intro world
  refine ⟨World.usable Credential.fresh_usable steps, fun id flight hflight => ?_⟩
  obtain ⟨earlier, between, -, -, hseen⟩ := exists_read_of_flight hflight
  have husable : flight.seen.Usable := by
    rw [hseen]
    exact World.usable Credential.fresh_usable earlier
  refine ⟨husable, fun code now hverifies => ?_, fun _ _ => husable.exists_parse_eq_ok⟩
  refine husable.verify_ne_malformedSecret ?_ flight.policy code now
  rcases hverifies with ⟨-, on⟩ | ⟨-, pending⟩
  · exact husable.keyed on
  · exact pending

end TwoFactor
end Contestant
