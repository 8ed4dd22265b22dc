import Contestant.Argon2.Filling
import Contestant.Digest.Blake2b

/-!
Argon2: the hash of a password under a salt.
-/

namespace Contestant
namespace Argon2

open Mixing

/-! ## Digests of any length -/

/-- A chain of digests, each of the one before. -/
def chain : Nat → List UInt8 → List (List UInt8)
  | 0, _ => []
  | count + 1, digest => digest :: chain count (Blake2b.hash 64 digest)

/-- A digest of any length: the first halves of a chain of digests, and a last one whole. -/
def longDigest (size : Nat) (message : List UInt8) : List UInt8 :=
  let message := littleEndian 4 size ++ message
  if size ≤ 64 then Blake2b.hash size message
  else
    let halves := (size + 31) / 32 - 2
    let digests := chain halves (Blake2b.hash 64 message)
    digests.flatMap (·.take 32) ++
      Blake2b.hash (size - 32 * halves) (digests.getLastD [])

/-! ## Hashing -/

/-- A text with its length before it. -/
def counted (bytes : List UInt8) : List UInt8 := littleEndian 4 bytes.length ++ bytes

/-- The digest of all that the hash depends on.  No key is used. -/
def seed (p : Parameters) (size : Nat) (password salt : List UInt8) : List UInt8 :=
  Blake2b.hash 64 <|
    [p.lanes, size, p.memory, p.passes, p.revision.code, p.variant.code].flatMap
      (littleEndian 4) ++ counted password ++ counted salt ++ counted [] ++ counted p.data

/-- The first two blocks of every lane. -/
def firstBlocks (p : Parameters) (seed : List UInt8) : Memory :=
  let block (lane column : Nat) : Block :=
    .ofBytes (longDigest 1024 (seed ++ littleEndian 4 column ++ littleEndian 4 lane))
  (List.range p.lanes).foldl (fun memory lane =>
    let first := lane * p.laneLength
    (memory.setIfInBounds first (block lane 0)).setIfInBounds (first + 1) (block lane 1))
    (Array.replicate p.blockCount .zero)

/-- The sum of the last blocks of all lanes. -/
def lastBlock (p : Parameters) (memory : Memory) : Block :=
  (List.range p.lanes).foldl (fun sum lane =>
    sum.xor (memory.getD (lane * p.laneLength + p.laneLength - 1) .zero)) .zero

def hash (p : Parameters) (size : Nat) (password salt : List UInt8) : List UInt8 :=
  longDigest size (lastBlock p (fill p (firstBlocks p (seed p size password salt)))).bytes

end Argon2
end Contestant
