/-!
Messages cut into 64-byte blocks of sixteen words, as the SHA digests read them.

A message is followed by one set bit, by zeros, and by its length in bits as 64 binary digits, so
that the whole fills its last block.
-/

namespace Contestant
namespace Digest

/-- The lowest `count` bytes of a number, highest first. -/
def bigEndian : Nat → Nat → List UInt8
  | 0, _ => []
  | count + 1, n => bigEndian count (n / 256) ++ [.ofNat n]

/-- The number whose bytes these are, highest first. -/
def fromBigEndian (bytes : List UInt8) : Nat := bytes.foldl (fun n b => 256 * n + b.toNat) 0

/-- A message with its end mark and its length, a multiple of 64 bytes. -/
def padded (message : List UInt8) : List UInt8 :=
  let zeros := (119 - message.length % 64) % 64
  message ++ 0x80 :: (List.replicate zeros 0 ++ bigEndian 8 (8 * message.length))

/-- Cuts a list into pieces of `size` elements; a shorter rest is dropped. -/
def pieces (size : Nat) (xs : List α) : List (List α) :=
  let piece := xs.take size
  if 0 < size ∧ piece.length = size then piece :: pieces size (xs.drop size) else []
termination_by xs.length
decreasing_by
  simp_all only [piece, List.length_take, List.length_drop]
  omega

def blocks (message : List UInt8) : List (List UInt32) :=
  (pieces 64 (padded message)).map fun block =>
    (pieces 4 block).map fun word => .ofNat (fromBigEndian word)

def rotateLeft (x : UInt32) (n : UInt32) : UInt32 := (x <<< n) ||| (x >>> (32 - n))

def rotateRight (x : UInt32) (n : UInt32) : UInt32 := (x >>> n) ||| (x <<< (32 - n))

/-- Extends the words of a block to `count` words, each computed from those before it. -/
def schedule (next : Array UInt32 → UInt32) (count : Nat) (block : List UInt32) : Array UInt32 :=
  (List.range (count - block.length)).foldl (fun words _ => words.push (next words))
    block.toArray

/-- The word `back` places before the end. -/
def backward (words : Array UInt32) (back : Nat) : UInt32 := words.getD (words.size - back) 0

/-- Byte `i` of a word, from the highest. -/
def wordByte (word : UInt32) (i : Nat) : UInt8 := .ofNat (word.toNat / Nat.pow 256 (3 - i))

end Digest
end Contestant
