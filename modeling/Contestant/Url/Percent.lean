import Contestant.Text.Utf8

/-!
Percent-encoding: a byte as a percent sign and two upper-case hexadecimal digits.
-/

namespace Contestant
namespace Percent

def hexDigit (n : Nat) : Char :=
  if n < 10 then Char.ofNat ('0'.toNat + n) else Char.ofNat ('A'.toNat + (n - 10))

def escape (byte : UInt8) : List Char :=
  ['%', hexDigit (byte.toNat / 16), hexDigit (byte.toNat % 16)]

/-- A text in which every character that is not kept is replaced by the escapes of its bytes. -/
def encode (keep : Char → Bool) (text : List Char) : List Char :=
  text.flatMap fun c => if keep c then [c] else (String.utf8EncodeChar c).flatMap escape

end Percent
end Contestant
