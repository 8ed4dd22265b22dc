import Contestant.Number.Reading
import Mathlib.Data.Nat.Digits.Defs

/-!
Integers written in decimal are read back.

What is known of the text of a natural number is that it consists of digits, that these have the
number as their value, and that a zero leads only if it stands alone.
-/

namespace Contestant

/-! ## Digits -/

theorem isDigit_iff {c : Char} : c.isDigit = true ↔ 48 ≤ c.toNat ∧ c.toNat ≤ 57 := by
  simp only [Char.isDigit, Bool.and_eq_true, decide_eq_true_eq, ge_iff_le, UInt32.le_iff_toNat_le]
  rfl

/-- The decimal digits of a number, the highest first. -/
def decimal (n : Nat) : List Nat := (Nat.toDigits 10 n).map digitValue

theorem digitValue_digitChar : ∀ d < 10, digitValue (Nat.digitChar d) = d := by
  decide

theorem decimal_of_lt {n : Nat} (h : n < 10) : decimal n = [n] := by
  rw [decimal, Nat.toDigits_of_lt_base h, List.map_singleton, digitValue_digitChar n h]

theorem decimal_of_le {n : Nat} (h : 10 ≤ n) : decimal n = decimal (n / 10) ++ [n % 10] := by
  rw [decimal, Nat.toDigits_of_base_le (by decide) h, List.map_append, List.map_singleton,
    digitValue_digitChar _ (Nat.mod_lt n (by decide))]
  rfl

theorem decimal_ne_nil (n : Nat) : decimal n ≠ [] := by
  intro h
  exact Nat.toDigits_ne_nil (List.map_eq_nil_iff.mp h)

theorem lt_of_mem_decimal {n d : Nat} (hd : d ∈ decimal n) : d < 10 := by
  induction n using Nat.strongRecOn with
  | ind n ih =>
    by_cases hn : n < 10
    · rw [decimal_of_lt hn, List.mem_singleton] at hd
      omega
    · rw [decimal_of_le (Nat.not_lt.mp hn), List.mem_append, List.mem_singleton] at hd
      rcases hd with hd | hd
      · exact ih (n / 10) (by omega) hd
      · omega

theorem exists_decimal_eq_cons (n : Nat) : ∃ d < 10, ∃ more, decimal n = d :: more := by
  cases hdecimal : decimal n with
  | nil => exact absurd hdecimal (decimal_ne_nil n)
  | cons d more =>
    have hd : d ∈ decimal n := by
      rw [hdecimal]
      exact List.mem_cons_self
    exact ⟨d, lt_of_mem_decimal hd, more, rfl⟩

theorem head?_decimal_ne_zero {n : Nat} (h : 0 < n) : (decimal n).head? ≠ some 0 := by
  induction n using Nat.strongRecOn with
  | ind n ih =>
    by_cases hn : n < 10
    · rw [decimal_of_lt hn, List.head?_cons, ne_eq, Option.some.injEq]
      omega
    · have hhead := ih (n / 10) (by omega) (by omega)
      rw [decimal_of_le (Nat.not_lt.mp hn)]
      cases hdigits : decimal (n / 10) with
      | nil => exact absurd hdigits (decimal_ne_nil _)
      | cons d rest =>
        rw [hdigits] at hhead
        exact hhead

theorem foldl_decimal (n : Nat) :
    (decimal n).foldl (fun value digit => 10 * value + digit) 0 = n := by
  rw [decimal, List.foldl_map]
  exact Nat.ofDigitChars_toDigits (by decide) (by decide)

/-! ## Reading -/

theorem readDigits_toDigits (n : Nat) : readDigits (Nat.toDigits 10 n) = some n := by
  have hdigits : (Nat.toDigits 10 n).all Char.isDigit = true := by
    rw [List.all_eq_true]
    intro c hc
    exact Nat.isDigit_of_mem_toDigits (by decide) (by decide) hc
  have hvalue : digitsValue (Nat.toDigits 10 n) = n :=
    Nat.ofDigitChars_toDigits (by decide) (by decide)
  rw [readDigits, hdigits, hvalue]
  simp [Nat.toDigits_ne_nil]

theorem ne_sign_of_isDigit {c : Char} (h : c.isDigit = true) : c ≠ '+' ∧ c ≠ '-' := by
  rw [isDigit_iff] at h
  constructor
  · rintro rfl
    exact absurd h (by decide)
  · rintro rfl
    exact absurd h (by decide)

/-- An integer within the bounds is read back from its text. -/
theorem readInteger_toString {low high i : Int} (hlow : low ≤ i) (hhigh : i ≤ high) :
    readInteger low high (toString i) = some i := by
  have hbounds : (some i).filter (fun n => decide (low ≤ n) && decide (n ≤ high)) = some i := by
    simp [hlow, hhigh]
  rw [Int.toString_eq_repr, Int.repr_eq_if, readInteger]
  by_cases hi : 0 ≤ i
  · have hvalue : (readDigits (Nat.toDigits 10 i.toNat)).map Int.ofNat = some i := by
      rw [readDigits_toDigits, Option.map_some, Int.ofNat_eq_natCast, Int.toNat_of_nonneg hi]
    rw [if_pos hi, Nat.toList_repr]
    cases hdigits : Nat.toDigits 10 i.toNat with
    | nil => exact absurd hdigits Nat.toDigits_ne_nil
    | cons c rest =>
      have hmem : c ∈ Nat.toDigits 10 i.toNat := by
        rw [hdigits]
        exact List.mem_cons_self
      obtain ⟨hplus, hminus⟩ :=
        ne_sign_of_isDigit (Nat.isDigit_of_mem_toDigits (by decide) (by decide) hmem)
      rw [hdigits] at hvalue
      split
      next h => exact absurd (List.cons.inj h).1 hplus
      next h => exact absurd (List.cons.inj h).1 hminus
      next => rw [hvalue, hbounds]
  · have hvalue :
        (readDigits (Nat.toDigits 10 (-i).toNat)).map (fun n : Nat => -(n : Int)) = some i := by
      rw [readDigits_toDigits, Option.map_some, Int.toNat_of_nonneg (by omega), Int.neg_neg]
    rw [if_neg hi, String.toList_append, Nat.toList_repr]
    show ((readDigits (Nat.toDigits 10 (-i).toNat)).map (fun n : Nat => -(n : Int))).filter _ = _
    rw [hvalue, hbounds]

end Contestant
