import Contestant.Json.Value
import Contestant.OneTime.ProvisioningUri
import Contestant.TwoFactor.Credential

/-!
The five two-factor requests: check a one-time code, check a scratch code, begin an enrolment,
confirm it, and issue new scratch codes.

A request reads the credential, decides from what it saw, and tries at most one conditional write.
The decision is a pure function of the credential seen, which may be out of date by the time of
the write; the write's own condition settles that.
-/

namespace Contestant
namespace TwoFactor

open OneTime

/-- How codes are verified. -/
structure Policy where
  verifier : Verifier
  tolerance : Nat

def issuer : String := "Judge"

/-- A request with its arguments, its instant and its random draws. -/
inductive Request
  | checkCode (code : String) (now : Instant)
  | checkScratch (code : String)
  | begin (username : String) (key : Vector UInt8 20) (draws : List Scratch.Draw)
  | confirm (code : String) (now : Instant)
  | regenerate (draws : List Scratch.Draw)

/-- Why a request is refused, as opposed to a code that is not accepted. -/
inductive Refusal
  | alreadyEnabled
  | noPendingKey
  | notEnabled
  | codesChanged
  | unavailable (fault : ServiceFault)
  deriving DecidableEq

def Refusal.fault : Refusal → ServiceFault
  | alreadyEnabled => .conflict "Two-factor authentication is already enabled"
  | noPendingKey => .badRequest "No pending two-factor key"
  | notEnabled => .badRequest "Two-factor authentication is not enabled"
  | codesChanged => .conflict "Scratch codes changed, try again"
  | unavailable fault => fault

/-- What a new enrolment shows, once: the key, the URI for an authenticator, and the codes. -/
structure Enrollment where
  key : String
  uri : String
  scratchCodes : List String
  deriving DecidableEq

def Enrollment.toJson (e : Enrollment) : JsonValue :=
  .object [("totp_key", .text e.key), ("provisioning_uri", .text e.uri),
    ("scratch_codes", .ofTexts e.scratchCodes)]

inductive Reply
  /-- Whether a code was accepted. -/
  | accepted (answer : Bool)
  | enrolled (enrollment : Enrollment)
  | issued (codes : List String)
  | refused (refusal : Refusal)
  deriving DecidableEq

/-- What a request does once it has seen the credential. -/
inductive Decision
  | reply (reply : Reply)
  /-- Tries a write, with the replies for a write that took place and for one that did not. -/
  | attempt (write : Write) (done failed : Reply)
  deriving DecidableEq

namespace Request

/-- Whether the request looks at the credential before it decides. -/
def reads : Request → Bool
  | begin _ _ _ => false
  | _ => true

/-- Verifies a one-time code and tries the write for the accepted timecode. -/
def decideCode (policy : Policy) (seen : Credential) (code : String) (now : Instant)
    (write : Timecode → Timecode → Write) : Decision :=
  match policy.verifier.verify (seen.state policy.tolerance) code now with
  | .accepted timecode _ =>
    .attempt (write seen.lastTimecode timecode) (.accepted true) (.accepted false)
  | .rejected _ => .reply (.accepted false)

/-- Consumes a scratch code and tries to store the remaining ones. -/
def decideScratch (seen : Credential) (code : String) : Decision :=
  match Scratch.Codes.parse seen.scratch with
  | .error _ => .reply (.accepted false)
  | .ok codes =>
    match codes.consume code with
    | none => .reply (.accepted false)
    | some rest =>
      .attempt (.replaceScratch seen.scratch rest.toJson) (.accepted true) (.accepted false)

def enrollment (policy : Policy) (username : String) (random : Vector UInt8 20)
    (draws : List Scratch.Draw) : Enrollment :=
  let key := freshKey random
  { key
    uri := provisioningUri policy.verifier key username issuer
    scratchCodes := (Scratch.Codes.ofDraws draws).texts }

def decide (policy : Policy) (request : Request) (seen : Credential) : Decision :=
  match request with
  | checkCode code now =>
    if seen.enabled then decideCode policy seen code now .advance
    else .reply (.accepted false)
  | checkScratch code =>
    if seen.enabled then decideScratch seen code else .reply (.accepted false)
  | begin username random draws =>
    .attempt (.enroll (freshKey random) (Scratch.Codes.ofDraws draws).toJson)
      (.enrolled (enrollment policy username random draws)) (.refused .alreadyEnabled)
  | confirm code now =>
    if seen.enabled then .reply (.refused .alreadyEnabled)
    else if seen.key.isNone then .reply (.refused .noPendingKey)
    else decideCode policy seen code now .enable
  | regenerate draws =>
    if seen.enabled then
      let codes := Scratch.Codes.ofDraws draws
      .attempt (.replaceScratch seen.scratch codes.toJson) (.issued codes.texts)
        (.refused .codesChanged)
    else .reply (.refused .notEnabled)

end Request
end TwoFactor
end Contestant
