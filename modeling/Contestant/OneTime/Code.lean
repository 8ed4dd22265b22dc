import Contestant.Digest.Hmac
import Contestant.Digest.Sha1

/-!
One-time codes: a counter's digest under a key, cut down to a few decimal digits.
-/

namespace Contestant
namespace OneTime

/-- A number's lowest `width` decimal digits. -/
def fixedDigits : Nat → Nat → List Char
  | 0, _ => []
  | width + 1, n => fixedDigits width (n / 10) ++ [Char.ofNat ('0'.toNat + n % 10)]

/-- The offset in a digest that its last four bits name. -/
def offset (digest : Vector UInt8 20) : Nat := digest[19].toNat % 16

theorem offset_lt (digest : Vector UInt8 20) : offset digest < 16 := Nat.mod_lt _ (by decide)

/-- The 31-bit number in the four bytes at the offset, highest first and without the top bit. -/
def truncate (digest : Vector UInt8 20) : Nat :=
  let i := offset digest
  have h : i < 16 := offset_lt digest
  ((digest[i].toNat % 128 * 256 + digest[i + 1].toNat) * 256 + digest[i + 2].toNat) * 256 +
    digest[i + 3].toNat

/-- The digest of a counter, written as eight bytes, under a key. -/
def counterDigest (key : List UInt8) (counter : Nat) : Vector UInt8 20 :=
  Hmac.digest Sha1.hash key (Digest.bigEndian 8 counter)

def code (key : List UInt8) (counter digits : Nat) : String :=
  String.ofList (fixedDigits digits (truncate (counterDigest key counter) % Nat.pow 10 digits))

end OneTime
end Contestant
