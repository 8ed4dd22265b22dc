import Contestant.Fault
import Contestant.Number.Arithmetic

/-!
Decay tables: the factors by which a contestant's results count, strongest result first.
-/

namespace Contestant

/-- A usable factor is a finite number above zero. -/
def Binary64.isFactor (x : Binary64) : Bool := x.isFinite && x.isPositive

namespace DecayTable

/-- The fault of a factor list: it is empty, or it has a first entry that is no factor. -/
def fault? (factors : List Binary64) : Option InputFault :=
  if factors.isEmpty then some .emptyTable
  else
    (factors.zipIdx.find? fun (value, _) => !value.isFactor).map fun (value, index) =>
      .tableEntry index value

end DecayTable

/-- A factor list without fault: not empty, and every entry finite and positive. -/
structure DecayTable where
  factors : List Binary64
  faultless : DecayTable.fault? factors = none

namespace DecayTable

def ofFactors (factors : List Binary64) : Except InputFault DecayTable :=
  match h : fault? factors with
  | some fault => .error fault
  | none => .ok ⟨factors, h⟩

/-- The powers `ratio^i` for `i` below `entries`, where `i` counts as a signed 32-bit number. -/
def powers (ratio : Binary64) (entries : Nat) : List Binary64 :=
  (List.range entries).map fun i => ratio.power (Int32.ofNat i).toInt

/-- The table of powers of a ratio above zero and at most one.  A power that underflows to zero is
a fault of its entry. -/
def geometric (ratio : Binary64) (entries : Nat) : Except InputFault DecayTable :=
  if ratio.isPositive && ratio.atMost .one then ofFactors (powers ratio entries)
  else .error (.stepRatio ratio)

def size (table : DecayTable) : Nat := table.factors.length

def isEmpty (table : DecayTable) : Bool := table.factors.isEmpty

end DecayTable
end Contestant
