import Contestant.Proofs.OneTime.Verification
import Mathlib.Data.List.Induction

/-!
Codes as decimal digits of a truncated digest.

A digest names four of its own bytes, and the last decimal digits of the 31-bit number in them are
the code.  `Shows` says this of a text without the computation, for every digest and every number of
digits, and no other text has the property.  As shorter codes are ends of longer ones, a code of six
digits tells the end of one of eight.
-/

namespace Contestant
namespace OneTime

/-! ## Digits -/

section

variable {width n : Nat} {c : Char} {cs : List Char}

theorem digitValue_ofNat : ∀ d < 10, digitValue (Char.ofNat ('0'.toNat + d)) = d := by
  decide

theorem digitValue_lt (hc : c.isDigit = true) : digitValue c < 10 := by
  rw [isDigit_iff] at hc
  show c.toNat - 48 < 10
  omega

theorem ofNat_digitValue (hc : c.isDigit = true) : Char.ofNat ('0'.toNat + digitValue c) = c := by
  rw [isDigit_iff] at hc
  have hvalue : '0'.toNat + digitValue c = c.toNat := by
    show 48 + (c.toNat - 48) = c.toNat
    omega
  rw [hvalue, Char.ofNat_toNat]

theorem digitsValue_append_singleton (cs : List Char) (c : Char) :
    digitsValue (cs ++ [c]) = 10 * digitsValue cs + digitValue c := by
  rw [digitsValue, List.foldl_append, digitsValue]
  rfl

theorem digitsValue_fixedDigits (width n : Nat) :
    digitsValue (fixedDigits width n) = n % 10 ^ width := by
  induction width generalizing n with
  | zero => exact (Nat.mod_one n).symm
  | succ width ih =>
    rw [fixedDigits, digitsValue_append_singleton, ih,
      digitValue_ofNat _ (Nat.mod_lt n (by decide)), Nat.pow_succ', Nat.mod_mul, Nat.add_comm]

/-- Digits are determined by their number and their value. -/
theorem eq_fixedDigits (hcs : ∀ c ∈ cs, c.isDigit = true) :
    cs = fixedDigits cs.length (digitsValue cs) := by
  -- A number's digits are written from the lowest, so the induction takes off the last one.
  induction cs using List.reverseRecOn with
  | nil => rfl
  | append_singleton cs c ih =>
    have hc := hcs c (List.mem_append_right cs List.mem_cons_self)
    have hlt := digitValue_lt hc
    have hdiv : (10 * digitsValue cs + digitValue c) / 10 = digitsValue cs := by omega
    have hmod : (10 * digitsValue cs + digitValue c) % 10 = digitValue c := by omega
    rw [List.length_append, List.length_singleton, fixedDigits, digitsValue_append_singleton, hdiv,
      hmod, ofNat_digitValue hc, ← ih fun d hd => hcs d (List.mem_append_left [c] hd)]

theorem fixedDigits_mod (width n : Nat) :
    fixedDigits width (n % 10 ^ width) = fixedDigits width n := by
  have h := eq_fixedDigits fun c (hc : c ∈ fixedDigits width n) => isDigit_of_mem_fixedDigits hc
  rw [length_fixedDigits, digitsValue_fixedDigits] at h
  exact h.symm

theorem fixedDigits_suffix (width more n : Nat) :
    fixedDigits width n <:+ fixedDigits (more + width) n := by
  induction width generalizing n with
  | zero => exact List.nil_suffix
  | succ width ih =>
    obtain ⟨front, hfront⟩ := ih (n / 10)
    rw [← Nat.add_assoc, fixedDigits, fixedDigits, ← hfront, List.append_assoc]
    exact List.suffix_append _ _

end

/-! ## Truncation -/

/-- The four bytes of a digest at the place that the low four bits of its last byte name. -/
def namedBytes (digest : Vector UInt8 20) : List UInt8 :=
  (digest.toList.drop (digest.back.toNat &&& 0x0f)).take 4

/-- A text of the last decimal digits, as many as wanted, of the 31-bit number that a digest
names. -/
structure Shows (digest : Vector UInt8 20) (digits : Nat) (text : String) : Prop where
  length_eq : text.length = digits
  isDigit : ∀ c ∈ text.toList, c.isDigit = true
  value : digitsValue text.toList =
    Digest.fromBigEndian (namedBytes digest) % 2 ^ 31 % 10 ^ digits

theorem offset_eq (digest : Vector UInt8 20) : offset digest = digest.back.toNat &&& 0x0f :=
  (Nat.and_two_pow_sub_one_eq_mod _ 4).symm

theorem namedBytes_eq {digest : Vector UInt8 20} (h : offset digest + 3 < 20) :
    namedBytes digest = [digest[offset digest], digest[offset digest + 1],
      digest[offset digest + 2], digest[offset digest + 3]] := by
  have hlength : digest.toList.length = 20 := Vector.length_toList
  rw [namedBytes, ← offset_eq]
  iterate 4 rw [List.drop_eq_getElem_cons (by omega), List.take_succ_cons]
  simp only [List.take_zero, Vector.getElem_toList]

theorem length_namedBytes (digest : Vector UInt8 20) : (namedBytes digest).length = 4 := by
  have h := offset_lt digest
  rw [namedBytes_eq (by omega)]
  rfl

theorem truncate_eq (digest : Vector UInt8 20) :
    truncate digest = Digest.fromBigEndian (namedBytes digest) % 2 ^ 31 := by
  have h : offset digest < 16 := offset_lt digest
  have h₁ := digest[offset digest + 1].toNat_lt
  have h₂ := digest[offset digest + 2].toNat_lt
  have h₃ := digest[offset digest + 3].toNat_lt
  rw [namedBytes_eq (by omega)]
  simp only [truncate, Digest.fromBigEndian, List.foldl_cons, List.foldl_nil]
  omega

/-- The code of a digest. -/
def shown (digest : Vector UInt8 20) (digits : Nat) : String :=
  String.ofList (fixedDigits digits (truncate digest % 10 ^ digits))

variable {digest : Vector UInt8 20} {digits : Nat} {text : String}

theorem toList_shown (digest : Vector UInt8 20) (digits : Nat) :
    (shown digest digits).toList = fixedDigits digits (truncate digest) := by
  rw [shown, String.toList_ofList, fixedDigits_mod]

theorem shows_shown (digest : Vector UInt8 20) (digits : Nat) :
    Shows digest digits (shown digest digits) where
  length_eq := by rw [← String.length_toList, toList_shown, length_fixedDigits]
  isDigit c hc := by
    rw [toList_shown] at hc
    exact isDigit_of_mem_fixedDigits hc
  value := by rw [toList_shown, digitsValue_fixedDigits, truncate_eq]

/-- A digest shows one text only. -/
theorem Shows.eq_shown (h : Shows digest digits text) : shown digest digits = text := by
  have hlength : text.toList.length = digits := by rw [String.length_toList, h.length_eq]
  have htext := eq_fixedDigits h.isDigit
  rw [hlength, h.value, ← truncate_eq, fixedDigits_mod] at htext
  rw [← String.toList_inj, toList_shown, htext]

theorem shown_eq_iff : shown digest digits = text ↔ Shows digest digits text := by
  constructor
  · rintro rfl
    exact shows_shown digest digits
  · exact Shows.eq_shown

theorem shown_suffix (digest : Vector UInt8 20) {digits digits' : Nat} (h : digits ≤ digits') :
    (shown digest digits).toList <:+ (shown digest digits').toList := by
  obtain ⟨more, rfl⟩ := Nat.exists_eq_add_of_le' h
  rw [toList_shown, toList_shown]
  exact fixedDigits_suffix digits more _

namespace Verifier

variable {v : Verifier} {secret : String} {key : List UInt8} {timecode : Timecode}

theorem generate_of_no_key (h : ¬ ∃ key, decodeKey secret = .ok key) :
    v.generate secret timecode = .error .malformedSecret := by
  cases hkey : decodeKey secret with
  | error fault => simp only [generate, hkey, eq_of_decodeKey_error hkey]
  | ok key => exact absurd ⟨key, hkey⟩ h

theorem generate_of_negative (hkey : decodeKey secret = .ok key) (h : timecode < 0) :
    v.generate secret timecode = .error .malformedCode := by
  simp only [generate, hkey, if_pos h]

theorem generate_eq_shown (hkey : decodeKey secret = .ok key) (h : 0 ≤ timecode) :
    v.generate secret timecode =
      .ok (shown (counterDigest key timecode.toInt.toNat) v.digits) :=
  generate_eq_ok hkey h

/-- What a stored key gives for a step, by conditions of which exactly one holds. -/
inductive Generates (v : Verifier) (secret : String) (timecode : Timecode) :
    Except InputFault String → Prop
  | malformedSecret (no_key : ¬ ∃ key, decodeKey secret = .ok key) :
    Generates v secret timecode (.error .malformedSecret)
  | malformedCode {key : List UInt8} (hasKey : decodeKey secret = .ok key)
    (negative : timecode < 0) : Generates v secret timecode (.error .malformedCode)
  | code {key : List UInt8} (hasKey : decodeKey secret = .ok key) (zero_le : 0 ≤ timecode)
    {text : String} (shows : Shows (counterDigest key timecode.toInt.toNat) v.digits text) :
    Generates v secret timecode (.ok text)

theorem generate_eq_of_generates {outcome : Except InputFault String}
    (h : v.Generates secret timecode outcome) : v.generate secret timecode = outcome := by
  cases h with
  | malformedSecret hnone => exact generate_of_no_key hnone
  | malformedCode hkey hnegative => exact generate_of_negative hkey hnegative
  | code hkey hzero hshows => rw [generate_eq_shown hkey hzero, hshows.eq_shown]

theorem exists_generates (v : Verifier) (secret : String) (timecode : Timecode) :
    ∃ outcome, v.Generates secret timecode outcome := by
  by_cases hkey : ∃ key, decodeKey secret = .ok key
  · obtain ⟨key, hkey⟩ := hkey
    by_cases hnegative : timecode < 0
    · exact ⟨_, .malformedCode hkey hnegative⟩
    · exact ⟨_, .code hkey (Int64.not_lt.mp hnegative) (shows_shown _ _)⟩
  · exact ⟨_, .malformedSecret hkey⟩

theorem generate_eq_iff {outcome : Except InputFault String} :
    v.generate secret timecode = outcome ↔ v.Generates secret timecode outcome := by
  refine ⟨fun h => ?_, generate_eq_of_generates⟩
  obtain ⟨generated, hgenerated⟩ := exists_generates v secret timecode
  rw [← h, generate_eq_of_generates hgenerated]
  exact hgenerated

theorem isWellFormed_of_shows {digest : Vector UInt8 20} {text : String}
    (h : Shows digest v.digits text) : v.isWellFormed text = true :=
  isWellFormed_iff.mpr ⟨h.length_eq, h.isDigit⟩

theorem exists_generate_suffix {v' : Verifier} (h : v.digits ≤ v'.digits) {text' : String}
    (htext' : v'.generate secret timecode = .ok text') :
    ∃ text, v.generate secret timecode = .ok text ∧ text.toList <:+ text'.toList := by
  cases generate_eq_iff.mp htext' with
  | code hkey hzero hshows =>
    refine ⟨_, generate_eq_shown hkey hzero, ?_⟩
    rw [← hshows.eq_shown]
    exact shown_suffix _ h

/-- A code is read off a digest as RFC 4226 says, whatever the digest is: the bytes it names are
there, its code has one text, the power of ten fits 32 bits.  The verifier accepts the form of its
own codes, and one of fewer digits gives the end of the code. -/
theorem generate_truncates_digest (v : Verifier) (secret : String) (timecode : Timecode) :
    (∀ outcome, v.generate secret timecode = outcome ↔ v.Generates secret timecode outcome) ∧
    (∀ text, v.generate secret timecode = .ok text → v.isWellFormed text = true) ∧
    (∀ digest : Vector UInt8 20, (namedBytes digest).length = 4 ∧
      ∀ text, shown digest v.digits = text ↔ Shows digest v.digits text) ∧
    10 ^ v.digits < UInt32.size ∧
    ∀ v' : Verifier, v'.digits < v.digits → ∀ text, v.generate secret timecode = .ok text →
      ∃ text', v'.generate secret timecode = .ok text' ∧ text'.toList <:+ text.toList := by
  refine ⟨fun _ => generate_eq_iff, fun text htext => ?_,
    fun digest => ⟨length_namedBytes digest, fun _ => shown_eq_iff⟩, ?_,
    fun v' hdigits text htext => exists_generate_suffix hdigits.le htext⟩
  · cases generate_eq_iff.mp htext with
    | code _ _ hshows => exact isWellFormed_of_shows hshows
  · calc
      10 ^ v.digits ≤ 10 ^ 8 := Nat.pow_le_pow_right (by decide) v.digits_le
      _ < UInt32.size := by decide

/-- The test vector of RFC 6238 for 59 seconds, whose last six digits are the code of six. -/
theorem generate_truncates_digest_rfc :
    let secret := "GEZDGNBVGY3TQOJQGEZDGNBVGY3TQOJQ"
    (clamped 30 8).generate secret 1 = .ok "94287082" ∧
    (clamped 30 6).generate secret 1 = .ok "287082" := by
  intro secret
  have height : (clamped 30 8).generate secret 1 = .ok "94287082" := by decide +kernel
  obtain ⟨-, -, -, -, hshorter⟩ := generate_truncates_digest (clamped 30 8) secret 1
  obtain ⟨houtcome, -⟩ := generate_truncates_digest (clamped 30 6) secret 1
  obtain ⟨text, htext, hsuffix⟩ := hshorter (clamped 30 6) (by decide) _ height
  cases (houtcome _).mp htext with
  | code _ _ hshows =>
    have hlength : text.toList.length = 6 := by
      rw [String.length_toList, hshows.length_eq]
      rfl
    have hlast : text.toList = "287082".toList := by
      rw [List.suffix_iff_eq_drop.mp hsuffix, hlength]
      decide
    rw [String.toList_inj.mp hlast] at htext
    exact ⟨height, htext⟩

end Verifier
end OneTime
end Contestant
