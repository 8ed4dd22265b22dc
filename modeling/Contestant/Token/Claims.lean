import Contestant.Fault
import Contestant.Json.Record
import Contestant.Json.Value

/-!
The claims of a token: whom it speaks for, in which role, and until when.
-/

namespace Contestant

structure Claims where
  subject : String
  role : String
  /-- The last second of validity, in Unix time. -/
  expires : Nat
  deriving DecidableEq

namespace Claims

/-! ## Writing and reading -/

def toJson (c : Claims) : JsonValue :=
  .object [("sub", .text c.subject), ("role", .text c.role), ("exp", .ofNat c.expires)]

/-- The claims of a payload.  The expiry has to be written as a natural number of 64 bits. -/
def read (payload : List UInt8) : Option Claims := do
  let record ← (Record.ofBytes [⟨"sub", .text⟩, ⟨"role", .text⟩, ⟨"exp", .value⟩] payload).toOption
  let expires ← (← record.source? "exp").asNatural?
  if expires < UInt64.size then
    return { subject := ← record.text? "sub", role := ← record.text? "role", expires }
  else none

/-! ## Meaning -/

def userId (c : Claims) : Option Int :=
  readInteger Int64.minValue.toInt Int64.maxValue.toInt c.subject

/-- How far clocks may differ, in seconds. -/
def leeway : Nat := 60

def isExpired (c : Claims) (now : Nat) : Bool := c.expires + leeway < now

/-- The claims of an account for the given lifetime.  The expiry is a sum in 64 bits, and nothing
holds the lifetime to what the clock leaves of them. -/
def ofUser (id : Int) (role : String) (lifetime now : Nat) : Except Breakdown Claims :=
  if now + lifetime < UInt64.size then .ok ⟨toString id, role, now + lifetime⟩
  else .error .sumOverflow

/-! ## Registered claims -/

/-- An audience is one text or a list of texts. -/
def isAudience : JsonSource → Bool
  | .list items => items.all fun item => item.asText?.isSome
  | value => value.asText?.isSome

/-- A start of validity is not enforced, but a number is expected in its place: a list or an
object is passed only if it is empty. -/
def numericPassage : JsonSource → Passage
  | .list items => if items.isEmpty then .spoiled else .stuck
  | .object members => if members.isEmpty then .spoiled else .stuck
  | value => value.passage

/-- Whether the registered claims of a payload leave the token valid: each stands at most once and
does not keep the rest from being read, and there is no audience, since this service is not named
by any. -/
def admitsRegistered (payload : List UInt8) : Bool :=
  match Record.ofBytes (["exp", "nbf", "sub", "iss", "aud"].map (⟨·, .value⟩)) payload with
  | .error _ => false
  | .ok record =>
    let passable (passage : JsonSource → Passage) (name : String) : Bool :=
      (record.source? name).all fun value => (passage value).isPassable
    passable numericPassage "nbf" && passable JsonSource.passage "iss" &&
      passable JsonSource.passage "aud" && !(record.source? "aud").any isAudience

end Claims
end Contestant
