import Contestant.Proofs.Json.Texts

/-!
Quoted texts are read back, whatever is in them.

A character is written as itself, by the letter of its escape or by its code, and the scanner takes
it apart into bytes and codes.  `exists_scanText_inside` says that these spell the text again, with
any bytes behind the closing quote.
-/

namespace Contestant

open JsonByte TextUnit

theorem TextUnit.spells_code {c : Char} (h : c.toNat < 0xd800) : Spells [.code c.toNat] [c] := by
  intro more
  have hhigh : isHigh c.toNat = false := by
    simp only [isHigh, Bool.and_eq_false_iff, decide_eq_false_iff_not]
    omega
  have hlow : isLow c.toNat = false := by
    simp only [isLow, Bool.and_eq_false_iff, decide_eq_false_iff_not]
    omega
  rw [List.singleton_append, join.eq_def]
  simp only [hhigh, hlow, Bool.false_eq_true, if_false, Char.ofNat_toNat]

namespace JsonSource

open JsonValue (escapeChar hexDigit)

/-! ## One element of a text -/

theorem yields_letter {letter value : UInt8} (hletter : letter ≠ letterU)
    (h : escapes.lookup letter = some value) : Yields [backslash, letter] [.byte value] := by
  intro rest
  rw [List.cons_append, List.singleton_append, scanText.eq_def]
  simp only [(by decide : backslash ≠ quote), if_false, if_true, if_neg hletter, h,
    Option.bind_eq_bind, Option.bind_some]
  cases scanText rest <;> rfl

theorem yields_code {h₁ h₂ h₃ h₄ : UInt8} {unit : Nat} (h : hexUnit [h₁, h₂, h₃, h₄] = some unit) :
    Yields [backslash, letterU, h₁, h₂, h₃, h₄] [.code unit] := by
  intro rest
  show scanText (backslash :: letterU :: h₁ :: h₂ :: h₃ :: h₄ :: rest) = _
  rw [scanText.eq_def]
  simp only [(by decide : backslash ≠ quote), if_false, if_true, h, Option.bind_eq_bind,
    Option.bind_some]
  cases scanText rest <;> rfl

/-! ## Characters -/

theorem isPlain_of_toNat {b : UInt8} (hcontrol : 32 ≤ b.toNat) (hquote : b.toNat ≠ 34)
    (hbackslash : b.toNat ≠ 92) : isPlain b = true := by
  simp only [isPlain, isControl, Bool.and_eq_true, decide_eq_true_eq, Bool.not_eq_true',
    decide_eq_false_iff_not, ne_eq, ← UInt8.toNat_inj, UInt8.lt_iff_toNat_lt]
  exact ⟨⟨hquote, hbackslash⟩, Nat.not_lt.mpr hcontrol⟩

theorem isPlain_of_mem_encode {c : Char} (hcontrol : 32 ≤ c.toNat) (hquote : c.toNat ≠ 34)
    (hbackslash : c.toNat ≠ 92) : ∀ b ∈ Utf8.encode [c], isPlain b = true := by
  intro b hb
  rw [Utf8.encode, List.flatMap_singleton] at hb
  by_cases hc : c.toNat < 128
  · rw [Utf8.utf8EncodeChar_of_lt hc] at hb
    have hnat : b.toNat = c.toNat := by
      rw [List.mem_singleton.mp hb, UInt8.toNat_ofNat_of_lt' (Nat.lt_trans hc (by decide))]
    exact isPlain_of_toNat (by omega) (by omega) (by omega)
  · have hle := Utf8.le_of_mem_utf8EncodeChar (Nat.not_lt.mp hc) hb
    exact isPlain_of_toNat (by omega) (by omega) (by omega)

/-- The bytes of an escape by code, and the code that they are read as. -/
theorem hexUnit_hexDigits : ∀ n < 32,
    Utf8.encode ['\\', 'u', '0', '0', hexDigit (n / 16), hexDigit (n % 16)] =
      [backslash, letterU, 0x30, 0x30, .ofNat (hexDigit (n / 16)).toNat,
        .ofNat (hexDigit (n % 16)).toNat] ∧
    hexUnit [0x30, 0x30, .ofNat (hexDigit (n / 16)).toNat,
      .ofNat (hexDigit (n % 16)).toNat] = some n := by
  decide

/-- The three ways in which a character below 128 is written. -/
theorem escapeChar_cases : ∀ n < 128,
    (∃ escape ∈ escapes, escape.1 ≠ letterU ∧ escapes.lookup escape.1 = some escape.2 ∧
      Utf8.encode [Char.ofNat n] = [escape.2] ∧
      Utf8.encode (escapeChar (Char.ofNat n)) = [backslash, escape.1]) ∨
    (n < 32 ∧ escapeChar (Char.ofNat n) =
      ['\\', 'u', '0', '0', hexDigit (n / 16), hexDigit (n % 16)]) ∨
    (32 ≤ n ∧ n ≠ 34 ∧ n ≠ 92 ∧ escapeChar (Char.ofNat n) = [Char.ofNat n]) := by
  decide +kernel

theorem escapeChar_of_le {c : Char} (h : 128 ≤ c.toNat) : escapeChar c = [c] := by
  have hne : ∀ d : Char, d.toNat < 128 → c ≠ d := by
    rintro d hd rfl
    omega
  rw [escapeChar, if_neg (hne _ (by decide)), if_neg (hne _ (by decide)), if_neg (hne _ (by decide)),
    if_neg (hne _ (by decide)), if_neg (hne _ (by decide)), if_neg (by omega), if_neg (by omega),
    if_neg (by omega)]

theorem exists_yields_escapeChar (c : Char) :
    ∃ units, Spells units [c] ∧ Yields (Utf8.encode (escapeChar c)) units := by
  have hplain : 32 ≤ c.toNat → c.toNat ≠ 34 → c.toNat ≠ 92 → escapeChar c = [c] →
      ∃ units, Spells units [c] ∧ Yields (Utf8.encode (escapeChar c)) units := by
    intro hcontrol hquote hbackslash hescape
    rw [hescape]
    exact ⟨_, spells_bytes [c], yields_plain (isPlain_of_mem_encode hcontrol hquote hbackslash)⟩
  by_cases hc : c.toNat < 128
  · have hcases := escapeChar_cases c.toNat hc
    rw [Char.ofNat_toNat] at hcases
    rcases hcases with ⟨⟨letter, value⟩, -, hletter, hlookup, hvalue, hescape⟩ | ⟨hlt, hescape⟩ |
      ⟨hcontrol, hquote, hbackslash, hescape⟩
    · have hspells := spells_bytes [c]
      rw [hvalue] at hspells
      rw [hescape]
      exact ⟨_, hspells, yields_letter hletter hlookup⟩
    · obtain ⟨hbytes, hunit⟩ := hexUnit_hexDigits c.toNat hlt
      rw [hescape, hbytes]
      exact ⟨_, spells_code (Nat.lt_trans hlt (by decide)), yields_code hunit⟩
    · exact hplain hcontrol hquote hbackslash hescape
  · have hle := Nat.not_lt.mp hc
    exact hplain (by omega) (by omega) (by omega) (escapeChar_of_le hle)

/-! ## Whole texts -/

theorem exists_yields_escaped (text : List Char) :
    ∃ units, Spells units text ∧ Yields (Utf8.encode (text.flatMap escapeChar)) units := by
  induction text with
  | nil => exact ⟨[], spells_bytes [], yields_nil⟩
  | cons c text ih =>
    obtain ⟨first, hfirst, hyields⟩ := exists_yields_escapeChar c
    obtain ⟨units, hunits, hrest⟩ := ih
    refine ⟨first ++ units, hfirst.append hunits, ?_⟩
    rw [List.flatMap_cons, Utf8.encode_append]
    exact hyields.append hrest

/-- The bytes between the quotes. -/
def inside (text : String) : List UInt8 := Utf8.encode (text.toList.flatMap escapeChar)

theorem encode_quote (text : String) (rest : List UInt8) :
    Utf8.encode (JsonValue.quote text) ++ rest = quote :: (inside text ++ quote :: rest) := by
  rw [JsonValue.quote, ← List.singleton_append, Utf8.encode_append, Utf8.encode_append,
    List.append_assoc, List.append_assoc]
  rfl

/-- A quoted text is scanned to units that denote it. -/
theorem exists_scanText_inside (text : String) :
    ∃ units, toString? units = some text ∧
      ∀ rest, scanText (inside text ++ quote :: rest) = some (units, rest) := by
  obtain ⟨units, hunits, hyields⟩ := exists_yields_escaped text.toList
  refine ⟨units, ?_, hyields.scanText⟩
  rw [hunits.toString?, String.ofList_toList]

end JsonSource
end Contestant
