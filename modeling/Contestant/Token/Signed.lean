import Contestant.Digest.Hmac
import Contestant.Digest.Sha256
import Contestant.Fault
import Contestant.Text.Radix
import Contestant.Text.Split
import Contestant.Text.Utf8
import Contestant.Token.Claims
import Contestant.Token.Header

/-!
Signed tokens: header, payload and signature, each in base64url, joined by points.

The signature is a keyed digest of the first two parts as they are written, so any change of
those breaks it, and verification compares its text.
-/

namespace Contestant
namespace Token

/-! ## Parts -/

def encodePart (bytes : List UInt8) : List Char := Alphabet.base64Url.encode bytes

def decodePart (part : List Char) : Option (List UInt8) := Alphabet.base64Url.decode? part

def signature (secret : String) (message : List Char) : List Char :=
  encodePart (Hmac.digest Sha256.hash (Utf8.encode secret.toList) (Utf8.encode message)).toList

/-! ## Signing and verifying -/

def sign (secret : String) (claims : Claims) : String :=
  let part (value : JsonValue) : List Char := encodePart (Utf8.encode value.write)
  let message := part TokenHeader.standard ++ '.' :: part claims.toJson
  String.ofList (message ++ '.' :: signature secret message)

/-- A token for an account, valid for `lifetime` seconds from now on.  There is none before the
start of Unix time, which is reported, and an expiry beyond 64 bits breaks the operation off. -/
def issue (secret : String) (id : Int) (role : String) (lifetime : Nat) (now : Int) :
    Except Breakdown (Except ServiceFault String) :=
  if now < 0 then .ok (.error (.internal "second time provided was later than self"))
  else (Claims.ofUser id role lifetime now.toNat).map fun claims => .ok (sign secret claims)

/-- The claims of a token that is well-formed, signed with the secret and not expired. -/
def open? (secret : String) (token : List Char) (now : Nat) : Option Claims := do
  let (message, mark) ← Text.splitLast '.' token
  let (header, payload) ← Text.splitLast '.' message
  if TokenHeader.admits (← decodePart header) && mark = signature secret message then
    let payload ← decodePart payload
    let claims ← Claims.read payload
    if Claims.admitsRegistered payload && !claims.isExpired now then some claims else none
  else none

/-- The same, where a refusal says nothing about its cause. -/
def verify (secret token : String) (now : Nat) : Except ServiceFault Claims :=
  match open? secret token.toList now with
  | some claims => .ok claims
  | none => .error (.unauthorized "Invalid token")

end Token

def Claims.owner (c : Claims) : Except ServiceFault Int :=
  match c.userId with
  | some id => .ok id
  | none => .error (.unauthorized "Invalid token subject")

end Contestant
