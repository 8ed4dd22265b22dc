/-!
What is chosen when a password is hashed by Argon2.
-/

namespace Contestant
namespace Argon2

/-- Where the choice of earlier blocks comes from: from their content, from a counter, or from a
counter in the first half of the first pass and from their content afterwards. -/
inductive Variant
  | dependent
  | independent
  | hybrid
  deriving DecidableEq

/-- The number that stands for a variant in what is hashed. -/
def Variant.code : Variant → Nat
  | dependent => 0
  | independent => 1
  | hybrid => 2

/-- The revisions differ in later passes: the earlier one overwrites a block, the later one adds
to it. -/
inductive Revision
  | overwriting
  | adding
  deriving DecidableEq

def Revision.code : Revision → Nat
  | overwriting => 16
  | adding => 19

structure Parameters where
  variant : Variant
  revision : Revision
  /-- The memory in blocks of 1024 bytes. -/
  memory : Nat
  passes : Nat
  lanes : Nat
  /-- Further bytes that the hash depends on. -/
  data : List UInt8
  deriving DecidableEq

namespace Parameters

def standard : Parameters := ⟨.hybrid, .adding, 19456, 2, 1, []⟩

/-- Every lane needs two blocks for each of its four segments. -/
def isAdmissible (p : Parameters) : Bool :=
  1 ≤ p.passes && 1 ≤ p.lanes && p.lanes < Nat.pow 2 24 && 8 * p.lanes ≤ p.memory

/-- The blocks of a segment, a quarter of a lane. -/
def segment (p : Parameters) : Nat := p.memory / (4 * p.lanes)

def laneLength (p : Parameters) : Nat := 4 * p.segment

def blockCount (p : Parameters) : Nat := p.lanes * p.laneLength

end Parameters
end Argon2
end Contestant
