import Contestant.OneTime.Verifier
import Contestant.Proofs.Number.Decimal
import Contestant.Proofs.Text.Utf8

/-!
What the code of a step looks like: as many decimal digits as the verifier wants.
-/

namespace Contestant
namespace OneTime

theorem isDigit_of_lt : ∀ d < 10, (Char.ofNat ('0'.toNat + d)).isDigit = true := by
  decide

@[simp] theorem length_fixedDigits (width n : Nat) : (fixedDigits width n).length = width := by
  induction width generalizing n with
  | zero => rfl
  | succ width ih => rw [fixedDigits, List.length_append, List.length_singleton, ih]

theorem isDigit_of_mem_fixedDigits {width n : Nat} {c : Char} (hc : c ∈ fixedDigits width n) :
    c.isDigit = true := by
  induction width generalizing n with
  | zero => cases hc
  | succ width ih =>
    rcases List.mem_append.mp hc with hc | hc
    · exact ih hc
    · rw [List.mem_singleton.mp hc]
      exact isDigit_of_lt _ (Nat.mod_lt n (by decide))

theorem lt_of_isDigit {c : Char} (hc : c.isDigit = true) : c.toNat < 128 := by
  rw [isDigit_iff] at hc
  omega

namespace Verifier

theorem isWellFormed_codeAt (v : Verifier) (key : List UInt8) (timecode : Timecode) :
    v.isWellFormed (v.codeAt key timecode) = true := by
  simp only [isWellFormed, codeAt, code, String.toList_ofList, Bool.and_eq_true,
    decide_eq_true_eq, List.all_eq_true]
  constructor
  · rw [Utf8.size_eq_length fun c hc => lt_of_isDigit (isDigit_of_mem_fixedDigits hc),
      length_fixedDigits]
  · exact fun c hc => isDigit_of_mem_fixedDigits hc

theorem generate_eq_ok {v : Verifier} {secret : String} {key : List UInt8} {timecode : Timecode}
    (hkey : decodeKey secret = .ok key) (h : 0 ≤ timecode) :
    v.generate secret timecode = .ok (v.codeAt key timecode) := by
  simp only [generate, hkey, if_neg (Int64.not_lt.mpr h)]

end Verifier
end OneTime
end Contestant
