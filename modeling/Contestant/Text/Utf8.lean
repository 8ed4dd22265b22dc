/-!
UTF-8 over lists: the bytes of a text and the text of some bytes.
-/

namespace Contestant
namespace Utf8

def encode (text : List Char) : List UInt8 := text.flatMap String.utf8EncodeChar

/-- The text that the bytes encode, if they encode one. -/
def decode? (bytes : List UInt8) : Option (List Char) :=
  bytes.toByteArray.utf8Decode?.map Array.toList

def size (text : List Char) : Nat := (encode text).length

theorem decode?_encode (text : List Char) : decode? (encode text) = some text := by
  simp [decode?, encode, ← List.utf8Encode.eq_1]

end Utf8
end Contestant
