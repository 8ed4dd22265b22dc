import Contestant.Proofs.OneTime.Code
import Mathlib.Data.List.Basic

/-!
The timecodes that a verification tries.

The window is computed in 64 bits, and what leaves their range is held to it.  An instant's
timecode is so far from both ends of the range that this makes no difference: a timecode is tried
if it is not negative, not used up and within the tolerance of the instant.  They are tried in
ascending order, so the one that is accepted is the smallest with the candidate as its code, which
need not be the one from which the candidate was made.
-/

namespace Contestant
namespace OneTime
namespace Verifier

variable {v : Verifier} {state : State} {now : Instant} {timecode : Timecode}

/-! ## The timecode of an instant -/

theorem timecode_bounds (v : Verifier) (now : Instant) :
    -8334601228800 ≤ now.seconds / v.stepSeconds ∧
      now.seconds / v.stepSeconds ≤ 8210266876799 := by
  have hstep : (0 : Int) < v.stepSeconds := Int.natCast_pos.mpr v.step_pos
  have hearliest := now.earliest
  have hlatest := now.latest
  constructor
  · rw [Int.le_ediv_iff_mul_le hstep]
    have hmul : (-8334601228800 : Int) * v.stepSeconds ≤ -8334601228800 * 1 :=
      Int.mul_le_mul_of_nonpos_left (by decide) hstep
    omega
  · rw [← Int.lt_add_one_iff, Int.ediv_lt_iff_lt_mul hstep]
    have hmul : (8210266876799 + 1 : Int) * 1 ≤ (8210266876799 + 1) * v.stepSeconds :=
      Int.mul_le_mul_of_nonneg_left hstep (by decide)
    omega

theorem toInt_timecode (v : Verifier) (now : Instant) :
    (v.timecode now).toInt = now.seconds / v.stepSeconds := by
  have hbounds := timecode_bounds v now
  exact Int64.toInt_ofInt_of_le (by omega) (by omega)

/-! ## The window -/

/-- Within the tolerance of an instant, as far as a tolerance is scanned. -/
def Reaches (v : Verifier) (tolerance : Nat) (now : Instant) (timecode : Timecode) : Prop :=
  (timecode.toInt - (v.timecode now).toInt).natAbs ≤ min tolerance maxTolerance

theorem saturated_eq (n : Int) :
    saturated n = max Int64.minValue.toInt (min n Int64.maxValue.toInt) := by
  have hle : Int64.minValue.toInt ≤ Int64.maxValue.toInt := by decide
  rw [saturated, Int64.ofIntClamp]
  split
  · split
    · rw [Int64.toInt_ofIntLE]
      omega
    · omega
  · omega

/-- The timecodes from the first to the last one. -/
def span (lower upper : Int) : List Timecode :=
  (List.range (upper - lower + 1).toNat).map fun (i : Nat) => .ofInt (lower + (i : Int))

theorem window_eq_span (state : State) (v : Verifier) (now : Instant) :
    ∃ lower upper, window state (v.timecode now) = span lower upper ∧
      0 ≤ lower ∧ upper ≤ Int64.maxValue.toInt ∧
      ∀ timecode : Timecode, lower ≤ timecode.toInt ∧ timecode.toInt ≤ upper ↔
        0 ≤ timecode ∧ state.lastAccepted < timecode ∧
          v.Reaches state.tolerance now timecode := by
  refine ⟨_, _, rfl, ?_⟩
  have hbounds := timecode_bounds v now
  rw [← toInt_timecode] at hbounds
  have htolerance : min state.tolerance maxTolerance ≤ 10 := Nat.min_le_right _ _
  have hmin : Int64.minValue.toInt = -9223372036854775808 := by decide
  have hmax : Int64.maxValue.toInt = 9223372036854775807 := by decide
  have hlast := state.lastAccepted.minValue_le_toInt
  simp only [saturated_eq, Reaches, Int64.lt_iff_toInt_lt, Int64.le_iff_toInt_le,
    Int64.toInt_zero]
  refine ⟨by omega, by omega, fun timecode => ?_⟩
  have htimecode := timecode.toInt_le
  omega

section
variable {lower upper : Int} (hlower : 0 ≤ lower) (hupper : upper ≤ Int64.maxValue.toInt)
include hlower hupper

theorem toInt_ofInt_add {i : Nat} (h : i < (upper - lower + 1).toNat) :
    (Int64.ofInt (lower + (i : Int))).toInt = lower + i := by
  have hmax : Int64.maxValue.toInt = 9223372036854775807 := by decide
  exact Int64.toInt_ofInt_of_le (by omega) (by omega)

theorem mem_span_iff : timecode ∈ span lower upper ↔
    lower ≤ timecode.toInt ∧ timecode.toInt ≤ upper := by
  simp only [span, List.mem_map, List.mem_range]
  constructor
  · rintro ⟨i, hi, rfl⟩
    rw [toInt_ofInt_add hlower hupper hi]
    omega
  · rintro ⟨hfirst, hlast⟩
    have hi : (timecode.toInt - lower).toNat < (upper - lower + 1).toNat := by omega
    refine ⟨_, hi, Int64.toInt_inj.mp ?_⟩
    rw [toInt_ofInt_add hlower hupper hi]
    omega

theorem pairwise_span : (span lower upper).Pairwise (· < ·) := by
  rw [span, List.pairwise_map]
  refine List.pairwise_lt_range.imp_of_mem fun hi hj hij => ?_
  rw [Int64.lt_iff_toInt_lt, toInt_ofInt_add hlower hupper (List.mem_range.mp hi),
    toInt_ofInt_add hlower hupper (List.mem_range.mp hj)]
  omega

end

theorem mem_window_iff : timecode ∈ window state (v.timecode now) ↔
    0 ≤ timecode ∧ state.lastAccepted < timecode ∧ v.Reaches state.tolerance now timecode := by
  obtain ⟨lower, upper, hspan, hlower, hupper, hiff⟩ := window_eq_span state v now
  rw [hspan, mem_span_iff hlower hupper, hiff]

theorem pairwise_window (state : State) (v : Verifier) (now : Instant) :
    (window state (v.timecode now)).Pairwise (· < ·) := by
  obtain ⟨lower, upper, hspan, hlower, hupper, -⟩ := window_eq_span state v now
  rw [hspan]
  exact pairwise_span hlower hupper

/-! ## Verification -/

/-- The first match in an ascending list is the smallest one. -/
theorem exists_find?_of_mem {timecodes : List Timecode} (hsorted : timecodes.Pairwise (· < ·))
    {p : Timecode → Bool} (hmem : timecode ∈ timecodes) (hp : p timecode = true) :
    ∃ first ∈ timecodes, first ≤ timecode ∧ timecodes.find? p = some first := by
  have hsome : (timecodes.find? p).isSome = true := List.find?_isSome.mpr ⟨timecode, hmem, hp⟩
  obtain ⟨first, hfind⟩ := Option.isSome_iff_exists.mp hsome
  refine ⟨first, List.mem_of_find?_eq_some hfind, ?_, hfind⟩
  obtain ⟨-, earlier, later, rfl, hearlier⟩ := List.find?_eq_some_iff_append.mp hfind
  rcases List.mem_append.mp hmem with hmem | hmem
  · have hnot := hearlier timecode hmem
    rw [hp] at hnot
    cases hnot
  · rcases List.mem_cons.mp hmem with rfl | hmem
    · exact Int64.le_refl _
    · have hcons := (List.pairwise_append.mp hsorted).2.1
      exact Int64.le_of_lt (List.rel_of_pairwise_cons hcons hmem)

/-- A key that can be decoded is never what a verification fails for. -/
theorem verify_ne_malformedSecret {key : List UInt8}
    (hkey : state.secret.map decodeKey = some (.ok key)) (candidate : String) (now : Instant) :
    v.verify state candidate now ≠ .rejected .malformedSecret := by
  simp only [verify, hkey]
  split
  · simp
  · split <;> simp

/-- The code of a timecode in the window is accepted, at this timecode or at an earlier one. -/
theorem verify_codeAt {key : List UInt8} (hkey : state.secret.map decodeKey = some (.ok key))
    (hwindow : timecode ∈ window state (v.timecode now)) :
    ∃ accepted ≤ timecode, state.lastAccepted < accepted ∧
      v.verify state (v.codeAt key timecode) now =
        .accepted accepted { state with lastAccepted := accepted } := by
  obtain ⟨accepted, hmem, hle, hfind⟩ :=
    exists_find?_of_mem (p := fun t => decide (v.codeAt key t = v.codeAt key timecode))
      (pairwise_window state v now) hwindow (decide_eq_true rfl)
  refine ⟨accepted, hle, (mem_window_iff.mp hmem).2.1, ?_⟩
  simp only [verify, isWellFormed_codeAt, hkey, hfind, Bool.not_true, Bool.false_eq_true, if_false]

end Verifier
end OneTime
end Contestant
