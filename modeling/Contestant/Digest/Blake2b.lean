import Contestant.Digest.Block
import Contestant.Digest.Mixing

/-!
BLAKE2b: digests of up to sixty-four bytes, without a key.
-/

namespace Contestant
namespace Blake2b

open Mixing

def initial : Vector UInt64 8 :=
  #v[0x6a09e667f3bcc908, 0xbb67ae8584caa73b, 0x3c6ef372fe94f82b, 0xa54ff53a5f1d36f1,
    0x510e527fade682d1, 0x9b05688c2b3e6c1f, 0x1f83d9abfb41bd6b, 0x5be0cd19137e2179]

/-- The order in which each round reads the words of a block. -/
def schedules : List (Vector (Fin 16) 16) :=
  [#v[0, 1, 2, 3, 4, 5, 6, 7, 8, 9, 10, 11, 12, 13, 14, 15],
   #v[14, 10, 4, 8, 9, 15, 13, 6, 1, 12, 0, 2, 11, 7, 5, 3],
   #v[11, 8, 12, 0, 5, 2, 15, 13, 10, 14, 3, 6, 7, 1, 9, 4],
   #v[7, 9, 3, 1, 13, 12, 11, 14, 2, 6, 5, 10, 4, 0, 15, 8],
   #v[9, 0, 5, 7, 2, 4, 10, 15, 14, 1, 11, 12, 6, 8, 3, 13],
   #v[2, 12, 6, 10, 0, 11, 8, 3, 4, 13, 7, 5, 15, 14, 1, 9],
   #v[12, 5, 1, 15, 14, 13, 4, 10, 0, 7, 6, 3, 9, 2, 8, 11],
   #v[13, 11, 7, 14, 12, 1, 3, 9, 5, 0, 15, 4, 8, 6, 2, 10],
   #v[6, 15, 14, 9, 11, 3, 0, 8, 12, 2, 13, 7, 1, 4, 10, 5],
   #v[10, 2, 8, 4, 7, 6, 1, 5, 15, 11, 9, 14, 3, 12, 13, 0],
   #v[0, 1, 2, 3, 4, 5, 6, 7, 8, 9, 10, 11, 12, 13, 14, 15],
   #v[14, 10, 4, 8, 9, 15, 13, 6, 1, 12, 0, 2, 11, 7, 5, 3]]

def round (block : Vector UInt64 16) (w : Words) (schedule : Vector (Fin 16) 16) : Words :=
  w.round fun i =>
    have := i.isLt
    let x := block[schedule[2 * i.val]]
    let y := block[schedule[2 * i.val + 1]]
    Quad.mix (fun a b => a + b + x) (fun a b => a + b + y) (· + ·)

/-- Takes one block into the chaining words.  `count` is the number of bytes up to the end of the
block. -/
def compress (h : Vector UInt64 8) (block : Vector UInt64 16) (count : Nat) (last : Bool) :
    Vector UInt64 8 :=
  let v := initial
  let w : Words :=
    ⟨h[0], h[1], h[2], h[3], h[4], h[5], h[6], h[7], v[0], v[1], v[2], v[3],
      v[4] ^^^ .ofNat count, v[5] ^^^ .ofNat (count / UInt64.size), if last then ~~~v[6] else v[6], v[7]⟩
  let w := (schedules.foldl (round block) w).toVector
  .ofFn fun i => h[i] ^^^ w[i.val] ^^^ w[i.val + 8]

/-- A message in pieces of at most 128 bytes; an empty message is one empty piece. -/
def chunks (message : List UInt8) : List (List UInt8) :=
  Digest.pieces 128 message ++
    if message.isEmpty || message.length % 128 ≠ 0 then
      [message.drop (message.length / 128 * 128)] else []

/-- Takes the chunks one after the other; `count` bytes came before. -/
def absorb : Vector UInt64 8 → Nat → List (List UInt8) → Vector UInt64 8
  | h, _, [] => h
  | h, count, chunk :: rest =>
    let bytes := chunk.toArray
    let count := count + bytes.size
    absorb (compress h (.ofFn fun i => wordAt bytes i) count rest.isEmpty) count rest

/-- The digest of `size` bytes, which is at most 64. -/
def hash (size : Nat) (message : List UInt8) : List UInt8 :=
  let h := initial.set 0 (initial[0] ^^^ 0x01010000 ^^^ .ofNat size)
  ((absorb h 0 (chunks message)).toList.flatMap wordBytes).take size

end Blake2b
end Contestant
