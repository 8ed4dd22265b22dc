/-!
Keyed digests: HMAC over any hash function that works on 64-byte blocks.
-/

namespace Contestant
namespace Hmac

/-- A key filled up to one block; a longer key is first replaced by its hash. -/
def blockKey (hash : List UInt8 → Vector UInt8 size) (key : List UInt8) : List UInt8 :=
  let key := if 64 < key.length then (hash key).toList else key
  key ++ List.replicate (64 - key.length) 0

def digest (hash : List UInt8 → Vector UInt8 size) (key message : List UInt8) :
    Vector UInt8 size :=
  let key := blockKey hash key
  let inner := hash (key.map (· ^^^ 0x36) ++ message)
  hash (key.map (· ^^^ 0x5c) ++ inner.toList)

end Hmac
end Contestant
