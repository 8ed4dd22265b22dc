/-!
Numbers as runs of binary digits, highest first, and runs cut into groups of one width.
-/

namespace Contestant
namespace Bits

def ofNat : Nat → Nat → List Bool
  | 0, _ => []
  | width + 1, n => ofNat width (n / 2) ++ [decide (n % 2 = 1)]

/-- The number that binary digits denote. -/
def toNat (bits : List Bool) : Nat := bits.foldl (fun n b => 2 * n + b.toNat) 0

/-- Cuts off groups of `width` digits while they last; what remains is shorter than a group. -/
def groups (width : Nat) (bits : List Bool) : List (List Bool) × List Bool :=
  let group := bits.take width
  if 0 < width ∧ group.length = width then
    let (more, rest) := groups width (bits.drop width)
    (group :: more, rest)
  else ([], bits)
termination_by bits.length
decreasing_by
  simp_all only [group, List.length_take, List.length_drop]
  omega

def ofBytes (bytes : List UInt8) : List Bool := bytes.flatMap fun b => ofNat 8 b.toNat

/-- The bytes that binary digits fill, and the digits that are left over. -/
def toBytes (bits : List Bool) : List UInt8 × List Bool :=
  let (bytes, rest) := groups 8 bits
  (bytes.map fun b => .ofNat (toNat b), rest)

end Bits
end Contestant
