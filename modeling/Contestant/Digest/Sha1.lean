import Contestant.Digest.Block

/-!
SHA-1: a digest of twenty bytes.
-/

namespace Contestant
namespace Sha1

open Digest

structure State where
  a : UInt32
  b : UInt32
  c : UInt32
  d : UInt32
  e : UInt32
  deriving DecidableEq

def initial : State := ⟨0x67452301, 0xefcdab89, 0x98badcfe, 0x10325476, 0xc3d2e1f0⟩

def nextWord (words : Array UInt32) : UInt32 :=
  rotateLeft (backward words 3 ^^^ backward words 8 ^^^ backward words 14 ^^^ backward words 16) 1

/-- The mixing function and the constant of a round: choice, parity, majority, parity, for twenty
rounds each. -/
def mixing (round : Nat) (s : State) : UInt32 × UInt32 :=
  if round < 20 then ((s.b &&& s.c) ||| (~~~s.b &&& s.d), 0x5a827999)
  else if round < 40 then (s.b ^^^ s.c ^^^ s.d, 0x6ed9eba1)
  else if round < 60 then ((s.b &&& s.c) ||| (s.b &&& s.d) ||| (s.c &&& s.d), 0x8f1bbcdc)
  else (s.b ^^^ s.c ^^^ s.d, 0xca62c1d6)

def round (s : State) (wordAt : UInt32 × Nat) : State :=
  let (word, index) := wordAt
  let (f, constant) := mixing index s
  ⟨rotateLeft s.a 5 + f + s.e + constant + word, s.a, rotateLeft s.b 30, s.c, s.d⟩

def compress (s : State) (block : List UInt32) : State :=
  let t := (schedule nextWord 80 block).toList.zipIdx.foldl round s
  ⟨s.a + t.a, s.b + t.b, s.c + t.c, s.d + t.d, s.e + t.e⟩

def State.bytes (s : State) : Vector UInt8 20 :=
  let words := #v[s.a, s.b, s.c, s.d, s.e]
  .ofFn fun i => wordByte words[i.val / 4] (i.val % 4)

def hash (message : List UInt8) : Vector UInt8 20 :=
  ((blocks message).foldl compress initial).bytes

end Sha1
end Contestant
