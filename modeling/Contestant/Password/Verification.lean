import Contestant.Argon2.Hash
import Contestant.Fault
import Contestant.Password.HashText

/-!
Passwords: hashing a new one, and checking one against a stored hash.

A stored hash that cannot be read is an internal failure.  One that can be read but asks for what
is not supported matches no password.
-/

namespace Contestant
namespace Password

open Argon2

/-! ## Parameters -/

def variants : List (String × Variant) :=
  [("argon2d", .dependent), ("argon2i", .independent), ("argon2id", .hybrid)]

def revision? : Option Nat → Option Revision
  | none => some .adding
  | some code => [Revision.overwriting, .adding].find? fun r => r.code = code

def boundedBytes (most : Nat) (value : String) : Option (List UInt8) :=
  (Alphabet.base64.decode? value.toList).filter fun bytes => bytes.length ≤ most

/-- Takes one parameter; of equal names the last one counts.  The name of a key is checked but
plays no part in the hash. -/
def setParameter (p : Parameters) : String × String → Option Parameters
  | (name, value) =>
    let decimal := (HashText.readDecimal value).toOption
    match name with
    | "m" => decimal.map fun memory => { p with memory }
    | "t" => decimal.map fun passes => { p with passes }
    | "p" => decimal.map fun lanes => { p with lanes }
    | "keyid" => (boundedBytes 8 value).map fun _ => p
    | "data" => (boundedBytes 32 value).map fun data => { p with data }
    | _ => none

/-- The parameters that a stored hash names; those it does not name have their standard value. -/
def parameters? (h : HashText) : Option Parameters := do
  let variant ← variants.lookup h.algorithm
  let revision ← revision? h.version
  let p ← h.parameters.foldlM setParameter { Parameters.standard with variant, revision }
  if p.isAdmissible then some p else none

/-- The bytes of a salt, at least eight. -/
def saltBytes? (salt : String) : Option (List UInt8) :=
  (Alphabet.base64.decode? salt.toList).filter fun bytes => 8 ≤ bytes.length

/-! ## Hashing and verifying -/

/-- Whether a password has the hash that was read. -/
def isMatch (password : String) (h : HashText) : Bool :=
  match parameters? h, h.salt.bind saltBytes?, h.digest with
  | some p, some salt, some digest =>
    Argon2.hash p digest.length (Utf8.encode password.toList) salt = digest
  | _, _, _ => false

def verify (password hashText : String) : Except ServiceFault Bool :=
  match HashText.read hashText.toList with
  | .ok h => .ok (isMatch password h)
  | .error fault => .error (.internal fault.message)

def hash (password : String) (random : Vector UInt8 16) : HashText :=
  let p := Parameters.standard
  let salt := random.toList
  { algorithm := "argon2id"
    version := some p.revision.code
    parameters :=
      [("m", toString p.memory), ("t", toString p.passes), ("p", toString p.lanes)]
    salt := some (String.ofList (Alphabet.base64.encode salt))
    digest := some (Argon2.hash p 32 (Utf8.encode password.toList) salt) }

end Password
end Contestant
