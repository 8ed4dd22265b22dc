import Contestant.Fault
import Contestant.Text.Radix
import Contestant.Text.Utf8

/-!
Shared keys: twenty random bytes, stored as 32 symbols of base 32.
-/

namespace Contestant
namespace OneTime

def keyLength : Nat := 32

/-- The bytes of a stored key.  Only upper-case base 32 of the exact length is one. -/
def decodeKey (stored : String) : Except InputFault (List UInt8) :=
  let text := stored.toList
  if Utf8.size text ≠ keyLength then .error .malformedSecret
  else
    match Alphabet.base32.decode? text with
    | some bytes => .ok bytes
    | none => .error .malformedSecret

def encodeKey (bytes : List UInt8) : String := String.ofList (Alphabet.base32.encode bytes)

def freshKey (random : Vector UInt8 20) : String := encodeKey random.toList

end OneTime
end Contestant
