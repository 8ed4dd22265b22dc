import Contestant.Argon2.Block
import Contestant.Argon2.Parameters

/-!
Filling the memory of Argon2.

The memory is a table of lanes, each cut into four segments.  Each pass fills all lanes of a
segment before the next segment; a new block is compressed from its predecessor in the lane and
from an earlier block that a random number selects.
-/

namespace Contestant
namespace Argon2

abbrev Memory := Array Block

/-- The place of a block, with the pass that fills it. -/
structure Position where
  pass : Nat
  slice : Nat
  lane : Nat
  offset : Nat
  deriving DecidableEq

namespace Position

/-- Whether the block before decides which earlier block is used, rather than a counter. -/
def isDependent (variant : Variant) (pass slice : Nat) : Bool :=
  match variant with
  | .dependent => true
  | .independent => false
  | .hybrid => 0 < pass || 2 ≤ slice

def column (p : Parameters) (place : Position) : Nat := place.slice * p.segment + place.offset

def index (p : Parameters) (place : Position) : Nat := place.lane * p.laneLength + place.column p

/-- The block before in the same lane; before the first one comes the last one. -/
def previous (p : Parameters) (place : Position) : Nat :=
  place.lane * p.laneLength + (place.column p + p.laneLength - 1) % p.laneLength

/-- How many blocks of a lane may be referred to. -/
def area (p : Parameters) (place : Position) (sameLane : Bool) : Nat :=
  let finished := if place.pass = 0 then place.slice * p.segment else p.laneLength - p.segment
  if sameLane then finished + place.offset - 1
  else if place.offset = 0 then finished - 1 else finished

/-- The earlier block that a random number selects: a lane by the upper half, and by the lower
half a place in it, with recent ones preferred. -/
def reference (p : Parameters) (place : Position) (random : UInt64) : Nat :=
  let lane :=
    if place.pass = 0 && place.slice = 0 then place.lane else (random >>> 32).toNat % p.lanes
  let area := place.area p (lane = place.lane)
  let x := random &&& 0xffffffff
  let distance := (.ofNat area * ((x * x) >>> 32)) >>> 32
  let start := if place.pass ≠ 0 && place.slice ≠ 3 then (place.slice + 1) * p.segment else 0
  lane * p.laneLength + (start + (area - 1 - distance.toNat)) % p.laneLength

end Position

/-! ## Segments -/

/-- The random numbers of a segment that come from a counter, 128 at a time. -/
def addresses (p : Parameters) (pass slice lane : Nat) : Array UInt64 :=
  let group (i : Nat) : List UInt64 :=
    let input := Block.ofWords <| #[pass, lane, slice, p.blockCount, p.passes, p.variant.code,
      i + 1].map UInt64.ofNat
    (Block.compress .zero (.compress .zero input)).words
  ((List.range ((p.segment + 127) / 128)).flatMap group).toArray

def fillBlock (p : Parameters) (random : Block → UInt64) (memory : Memory) (place : Position) :
    Memory :=
  let before := memory.getD (place.previous p) .zero
  let earlier := memory.getD (place.reference p (random before)) .zero
  let fresh := before.compress earlier
  let i := place.index p
  let block :=
    if place.pass = 0 || p.revision = .overwriting then fresh
    else (memory.getD i .zero).xor fresh
  memory.setIfInBounds i block

def fillSegment (p : Parameters) (pass slice : Nat) (memory : Memory) (lane : Nat) : Memory :=
  let first := if pass = 0 && slice = 0 then 2 else 0
  let offsets := (List.range p.segment).drop first
  if Position.isDependent p.variant pass slice then
    offsets.foldl (fun memory offset =>
      fillBlock p (fun before => before.r0.w0) memory ⟨pass, slice, lane, offset⟩) memory
  else
    let numbers := addresses p pass slice lane
    offsets.foldl (fun memory offset =>
      fillBlock p (fun _ => numbers.getD offset 0) memory ⟨pass, slice, lane, offset⟩) memory

/-! ## Passes -/

/-- Fills the memory, given the first two blocks of each lane. -/
def fill (p : Parameters) (memory : Memory) : Memory :=
  (List.range p.passes).foldl (fun memory pass =>
    (List.range 4).foldl (fun memory slice =>
      (List.range p.lanes).foldl (fillSegment p pass slice) memory) memory) memory

end Argon2
end Contestant
