import Contestant.OneTime.Verifier
import Contestant.Scratch.Codes

/-!
An account's two-factor credential and the conditional writes that change it.

A write names what it expects to find.  It checks the live credential and changes it in one step,
or finds something else and changes nothing, so of two writers with the same expectation at most
one succeeds.
-/

namespace Contestant
namespace TwoFactor

open OneTime

/-- The two-factor part of an account. -/
structure Credential where
  enabled : Bool
  /-- The stored key; while the credential is off it is a pending one. -/
  key : Option String
  scratch : Option String
  lastTimecode : Timecode
  deriving DecidableEq

namespace Credential

def fresh : Credential := ⟨false, none, none, 0⟩

/-- What verification needs of a credential. -/
def state (c : Credential) (tolerance : Nat) : OneTime.State := ⟨c.key, c.lastTimecode, tolerance⟩

end Credential

inductive Write
  /-- Moves the last timecode up from the expected one. -/
  | advance (expected new : Timecode)
  /-- Replaces the expected text of scratch codes. -/
  | replaceScratch (expected : Option String) (text : String)
  /-- Stores a pending key with its scratch codes and starts its timecodes over. -/
  | enroll (key text : String)
  /-- Switches a pending key on, at the timecode that proved it. -/
  | enable (expected new : Timecode)
  deriving DecidableEq

namespace Write

/-- Whether a write finds what it expects. -/
def admits (w : Write) (c : Credential) : Bool :=
  match w with
  | advance expected new => c.lastTimecode = expected && expected < new
  | replaceScratch expected _ => c.scratch = expected
  | enroll _ _ => !c.enabled
  | enable expected new =>
    !c.enabled && c.key.isSome && c.lastTimecode = expected && expected < new

def result (w : Write) (c : Credential) : Credential :=
  match w with
  | advance _ new => { c with lastTimecode := new }
  | replaceScratch _ text => { c with scratch := some text }
  | enroll key text => { c with key := some key, scratch := some text, lastTimecode := 0 }
  | enable _ new => { c with enabled := true, lastTimecode := new }

/-- Whether the write took place, and the credential after it. -/
def apply (w : Write) (c : Credential) : Bool × Credential :=
  if w.admits c then (true, w.result c) else (false, c)

end Write
end TwoFactor
end Contestant
