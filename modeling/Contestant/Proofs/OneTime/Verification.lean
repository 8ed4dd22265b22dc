import Contestant.Proofs.OneTime.Key
import Contestant.Proofs.OneTime.Window
import Mathlib.Data.Set.Basic
import Mathlib.Order.Bounds.Basic

/-!
What a verification decides, as a condition on its inputs.

The window is described in unbounded integers, apart from the list of 64-bit timecodes that is
searched.  `verify_decides_window` gives the exact condition of each verdict: the format of the code
comes before that of the key, and a code of the right format under a proper key is accepted at the
smallest timecode of the window that shows it.  What a verification leaves behind is the same state
with a last accepted timecode that is no smaller, and greater exactly after an acceptance.
-/

namespace Contestant
namespace OneTime
namespace Verifier

variable {v : Verifier} {state : State} {now : Instant} {timecode : Timecode}

/-- As many decimal digits as the verifier wants, and nothing else. -/
structure WellFormedCode (v : Verifier) (candidate : String) : Prop where
  length_eq : candidate.length = v.digits
  isDigit : ∀ c ∈ candidate.toList, c.isDigit = true

theorem isWellFormed_iff {candidate : String} :
    v.isWellFormed candidate = true ↔ v.WellFormedCode candidate := by
  have hsize : (∀ c ∈ candidate.toList, c.isDigit = true) →
      Utf8.size candidate.toList = candidate.length := fun h => by
    rw [Utf8.size_eq_length fun c hc => lt_of_isDigit (h c hc), String.length_toList]
  simp only [isWellFormed, Bool.and_eq_true, decide_eq_true_eq, List.all_eq_true]
  constructor
  · rintro ⟨hlength, hdigits⟩
    exact ⟨(hsize hdigits).symm.trans hlength, hdigits⟩
  · rintro ⟨hlength, hdigits⟩
    exact ⟨(hsize hdigits).trans hlength, hdigits⟩

/-! ## The window in unbounded integers -/

/-- A count of steps that is not negative, not used up, and within the capped tolerance of the
instant's own, which is rounded downwards also before 1970. -/
structure InWindow (v : Verifier) (state : State) (now : Instant) (n : Int) : Prop where
  zero_le : 0 ≤ n
  last_lt : state.lastAccepted.toInt < n
  near : (n - now.seconds / v.stepSeconds).natAbs ≤ min state.tolerance maxTolerance

theorem mem_window_iff_inWindow :
    timecode ∈ window state (v.timecode now) ↔ v.InWindow state now timecode.toInt := by
  rw [mem_window_iff, Int64.le_iff_toInt_le, Int64.lt_iff_toInt_lt, Int64.toInt_zero, Reaches,
    toInt_timecode]
  constructor
  · rintro ⟨hzero, hlast, hnear⟩
    exact ⟨hzero, hlast, hnear⟩
  · rintro ⟨hzero, hlast, hnear⟩
    exact ⟨hzero, hlast, hnear⟩

/-- The window lies well inside the range of timecodes, so none of it is cut off. -/
theorem InWindow.exists_timecode {n : Int} (h : v.InWindow state now n) :
    ∃ timecode : Timecode, timecode.toInt = n := by
  have hbounds := timecode_bounds v now
  have hnear := h.near
  have hzero := h.zero_le
  have htolerance : min state.tolerance maxTolerance ≤ 10 := Nat.min_le_right _ _
  have hmin : Int64.minValue.toInt = -9223372036854775808 := by decide
  have hmax : Int64.maxValue.toInt = 9223372036854775807 := by decide
  exact ⟨.ofInt n, Int64.toInt_ofInt_of_le (by omega) (by omega)⟩

theorem exists_mem_window_iff {n : Int} :
    (∃ timecode ∈ window state (v.timecode now), timecode.toInt = n) ↔ v.InWindow state now n := by
  constructor
  · rintro ⟨timecode, hmem, rfl⟩
    exact mem_window_iff_inWindow.mp hmem
  · intro h
    obtain ⟨timecode, rfl⟩ := h.exists_timecode
    exact ⟨timecode, mem_window_iff_inWindow.mpr h, rfl⟩

theorem length_window_le (state : State) (current : Timecode) :
    (window state current).length ≤ 2 * maxTolerance + 1 := by
  have htolerance : min state.tolerance maxTolerance ≤ maxTolerance := Nat.min_le_right _ _
  simp only [window, List.length_map, List.length_range, saturated_eq]
  omega

/-! ## The search -/

section

variable {p : Timecode → Bool}

theorem find?_window_eq_some_iff :
    (window state (v.timecode now)).find? p = some timecode ↔
      timecode ∈ window state (v.timecode now) ∧ p timecode = true ∧
      ∀ other ∈ window state (v.timecode now), p other = true → timecode ≤ other := by
  have hsorted := pairwise_window state v now
  constructor
  · intro hfind
    refine ⟨List.mem_of_find?_eq_some hfind, List.find?_some hfind, fun other hmem hp => ?_⟩
    obtain ⟨first, -, hle, hfirst⟩ := exists_find?_of_mem hsorted hmem hp
    rw [hfind, Option.some.injEq] at hfirst
    rw [hfirst]
    exact hle
  · rintro ⟨hmem, hp, hleast⟩
    obtain ⟨first, hfirstMem, hle, hfirst⟩ := exists_find?_of_mem hsorted hmem hp
    have hge := hleast first hfirstMem (List.find?_some hfirst)
    rw [hfirst, Option.some.injEq]
    exact Int64.le_antisymm hle hge

end

/-- The step counts of the window whose code is the candidate. -/
def matching (v : Verifier) (state : State) (key : List UInt8) (candidate : String)
    (now : Instant) : Set Int :=
  {n | v.InWindow state now n ∧ code key n.toNat v.digits = candidate}

variable {key : List UInt8} {candidate : String}

theorem find?_code_eq_some_iff :
    (window state (v.timecode now)).find? (fun t => v.codeAt key t = candidate) = some timecode ↔
      IsLeast (v.matching state key candidate now) timecode.toInt := by
  rw [find?_window_eq_some_iff]
  simp only [mem_window_iff_inWindow, decide_eq_true_eq]
  constructor
  · rintro ⟨hwindow, hcode, hleast⟩
    refine ⟨⟨hwindow, hcode⟩, fun n ⟨hn, hcode'⟩ => ?_⟩
    obtain ⟨other, rfl⟩ := hn.exists_timecode
    exact Int64.le_iff_toInt_le.mp (hleast other hn hcode')
  · rintro ⟨⟨hwindow, hcode⟩, hleast⟩
    exact ⟨hwindow, hcode, fun other hother hcode' =>
      Int64.le_iff_toInt_le.mpr (hleast ⟨hother, hcode'⟩)⟩

theorem find?_code_eq_none_iff :
    (window state (v.timecode now)).find? (fun t => v.codeAt key t = candidate) = none ↔
      v.matching state key candidate now = ∅ := by
  rw [List.find?_eq_none, Set.eq_empty_iff_forall_notMem]
  simp only [decide_eq_true_eq]
  constructor
  · rintro hnone n ⟨hn, hcode⟩
    obtain ⟨timecode, rfl⟩ := hn.exists_timecode
    exact hnone timecode (mem_window_iff_inWindow.mpr hn) hcode
  · intro hempty timecode hmem hcode
    exact hempty timecode.toInt ⟨mem_window_iff_inWindow.mp hmem, hcode⟩

/-! ## The verdict -/

/-- The bytes of the key in a state. -/
def HasKey (state : State) (key : List UInt8) : Prop :=
  ∃ secret, state.secret = some secret ∧ WellFormedKey secret ∧ decodeKey secret = .ok key

/-- The verdict on a candidate, by conditions of which exactly one holds. -/
inductive Decides (v : Verifier) (state : State) (candidate : String) (now : Instant) :
    Verdict → Prop
  | malformedCode (code : ¬ v.WellFormedCode candidate) :
    Decides v state candidate now (.rejected .malformedCode)
  | malformedSecret (code : v.WellFormedCode candidate)
    (secret : ¬ ∃ secret, state.secret = some secret ∧ WellFormedKey secret) :
    Decides v state candidate now (.rejected .malformedSecret)
  | accepted (code : v.WellFormedCode candidate) {key : List UInt8} (hasKey : HasKey state key)
    {timecode : Timecode}
    (least : IsLeast (v.matching state key candidate now) timecode.toInt) :
    Decides v state candidate now (.accepted timecode { state with lastAccepted := timecode })
  | noMatch (code : v.WellFormedCode candidate) {key : List UInt8} (hasKey : HasKey state key)
    (empty : v.matching state key candidate now = ∅) :
    Decides v state candidate now (.rejected .noMatch)

theorem hasKey_iff : HasKey state key ↔ state.secret.map decodeKey = some (.ok key) := by
  rw [Option.map_eq_some_iff]
  constructor
  · rintro ⟨secret, hsecret, -, hkey⟩
    exact ⟨secret, hsecret, hkey⟩
  · rintro ⟨secret, hsecret, hkey⟩
    exact ⟨secret, hsecret, exists_decodeKey_iff.mp ⟨key, hkey⟩, hkey⟩

theorem exists_hasKey_iff :
    (∃ key, HasKey state key) ↔ ∃ secret, state.secret = some secret ∧ WellFormedKey secret := by
  constructor
  · rintro ⟨key, secret, hsecret, hwellFormed, -⟩
    exact ⟨secret, hsecret, hwellFormed⟩
  · rintro ⟨secret, hsecret, hwellFormed⟩
    obtain ⟨key, hkey⟩ := exists_decodeKey_iff.mpr hwellFormed
    exact ⟨key, secret, hsecret, hwellFormed, hkey⟩

theorem verify_of_malformedCode (h : ¬ v.WellFormedCode candidate) :
    v.verify state candidate now = .rejected .malformedCode := by
  rw [← isWellFormed_iff] at h
  simp only [verify, Bool.eq_false_iff.mpr h, Bool.not_false, if_true]

theorem verify_of_no_key (h : v.WellFormedCode candidate) (hkey : ¬ ∃ key, HasKey state key) :
    v.verify state candidate now = .rejected .malformedSecret := by
  simp only [hasKey_iff] at hkey
  simp only [verify, isWellFormed_iff.mpr h, Bool.not_true, Bool.false_eq_true, if_false]
  split
  next key hsome => exact absurd ⟨key, hsome⟩ hkey
  next => rfl

theorem verify_of_isLeast (h : v.WellFormedCode candidate) (hkey : HasKey state key)
    (hleast : IsLeast (v.matching state key candidate now) timecode.toInt) :
    v.verify state candidate now = .accepted timecode { state with lastAccepted := timecode } := by
  simp only [verify, isWellFormed_iff.mpr h, hasKey_iff.mp hkey,
    find?_code_eq_some_iff.mpr hleast, Bool.not_true, Bool.false_eq_true, if_false]

theorem verify_of_matching_empty (h : v.WellFormedCode candidate) (hkey : HasKey state key)
    (hempty : v.matching state key candidate now = ∅) :
    v.verify state candidate now = .rejected .noMatch := by
  simp only [verify, isWellFormed_iff.mpr h, hasKey_iff.mp hkey,
    find?_code_eq_none_iff.mpr hempty, Bool.not_true, Bool.false_eq_true, if_false]

theorem exists_isLeast_or_matching_empty (v : Verifier) (state : State) (key : List UInt8)
    (candidate : String) (now : Instant) :
    (∃ timecode : Timecode, IsLeast (v.matching state key candidate now) timecode.toInt) ∨
      v.matching state key candidate now = ∅ := by
  cases hfind : (window state (v.timecode now)).find? (fun t => v.codeAt key t = candidate) with
  | some timecode => exact .inl ⟨timecode, find?_code_eq_some_iff.mp hfind⟩
  | none => exact .inr (find?_code_eq_none_iff.mp hfind)

theorem verify_eq_of_decides {verdict : Verdict} (h : v.Decides state candidate now verdict) :
    v.verify state candidate now = verdict := by
  cases h with
  | malformedCode hcode => exact verify_of_malformedCode hcode
  | malformedSecret hcode hsecret =>
    rw [← exists_hasKey_iff] at hsecret
    exact verify_of_no_key hcode hsecret
  | accepted hcode hkey hleast => exact verify_of_isLeast hcode hkey hleast
  | noMatch hcode hkey hempty => exact verify_of_matching_empty hcode hkey hempty

theorem exists_decides (v : Verifier) (state : State) (candidate : String) (now : Instant) :
    ∃ verdict, v.Decides state candidate now verdict := by
  by_cases hcode : v.WellFormedCode candidate
  · by_cases hkey : ∃ key, HasKey state key
    · obtain ⟨key, hkey⟩ := hkey
      rcases exists_isLeast_or_matching_empty v state key candidate now with
        ⟨timecode, hleast⟩ | hempty
      · exact ⟨_, .accepted hcode hkey hleast⟩
      · exact ⟨_, .noMatch hcode hkey hempty⟩
    · rw [exists_hasKey_iff] at hkey
      exact ⟨_, .malformedSecret hcode hkey⟩
  · exact ⟨_, .malformedCode hcode⟩

/-- The state from then on has the key and the tolerance of the one before.  Its last accepted
timecode is no smaller, and the candidate was accepted exactly if it is greater. -/
theorem exists_settle_verify (v : Verifier) (state : State) (candidate : String) (now : Instant) :
    ∃ last : Timecode, state.lastAccepted ≤ last ∧
      (v.verify state candidate now).settle state =
        (decide (state.lastAccepted < last), { state with lastAccepted := last }) := by
  have hkept : ∀ reason, ((Verdict.rejected reason).settle state) =
      (decide (state.lastAccepted < state.lastAccepted), state) := by
    intro reason
    rw [decide_eq_false Int64.lt_irrefl]
    rfl
  obtain ⟨verdict, hdecides⟩ := exists_decides v state candidate now
  rw [verify_eq_of_decides hdecides]
  cases hdecides with
  | malformedCode => exact ⟨state.lastAccepted, Int64.le_refl _, hkept _⟩
  | malformedSecret => exact ⟨state.lastAccepted, Int64.le_refl _, hkept _⟩
  | noMatch => exact ⟨state.lastAccepted, Int64.le_refl _, hkept _⟩
  | accepted _ _ hleast =>
    have hlater := Int64.lt_iff_toInt_lt.mpr hleast.1.1.last_lt
    refine ⟨_, Int64.le_of_lt hlater, ?_⟩
    rw [decide_eq_true hlater]
    rfl

/-- A verification gives the verdict that its inputs decide, and no other.  The timecodes to try are
those of the window in unbounded integers, and the widest tolerance leaves no more than 21. -/
theorem verify_decides_window (v : Verifier) (state : State) (candidate : String)
    (now : Instant) :
    (∀ verdict, v.verify state candidate now = verdict ↔
      v.Decides state candidate now verdict) ∧
    (∀ n, (∃ timecode ∈ window state (v.timecode now), timecode.toInt = n) ↔
      v.InWindow state now n) ∧
    (window state (v.timecode now)).length ≤ 21 := by
  refine ⟨fun verdict => ⟨fun h => ?_, verify_eq_of_decides⟩, fun _ => exists_mem_window_iff,
    length_window_le state _⟩
  obtain ⟨decided, hdecided⟩ := exists_decides v state candidate now
  rw [← h, verify_eq_of_decides hdecided]
  exact hdecided

end Verifier
end OneTime
end Contestant
