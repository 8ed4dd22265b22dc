import Contestant.Proofs.Json.Escapes
import Contestant.Proofs.Number.Decimal

/-!
Written values are scanned.

Inside an object a value ends at the comma or the brace behind it.  A number has no end of its own,
so what `Scans` says of a value holds in front of these two bytes only.
-/

namespace Contestant
namespace JsonSource

open JsonByte

/-- What ends a value inside an object. -/
def IsEnd (b : UInt8) : Prop := b = comma ∨ b = closeBrace

/-- A value that is scanned to `source`, whatever comes behind its end. -/
def Scans (value : JsonValue) (source : JsonSource) : Prop :=
  ∀ (fuel : Nat) (b : UInt8) (rest : List UInt8), IsEnd b →
    scanWith (fuel + 1) (Utf8.encode value.write ++ b :: rest) = some (source, b :: rest)

theorem Scans.scan {value : JsonValue} {source : JsonSource} (h : Scans value source) {b : UInt8}
    (hb : IsEnd b) (rest : List UInt8) :
    scan (Utf8.encode value.write ++ b :: rest) = some (source, b :: rest) :=
  h _ b rest hb

/-! ## Texts -/

theorem exists_scans_text (text : String) :
    ∃ units, TextUnit.toString? units = some text ∧ Scans (.text text) (.text units) := by
  obtain ⟨units, hunits, hscan⟩ := exists_scanText_inside text
  refine ⟨units, hunits, ?_⟩
  intro fuel b rest _
  rw [JsonValue.write, encode_quote, scanWith, skipBlank_of_not_blank (by decide)]
  simp only [if_true, hscan, Option.map_some]

/-! ## Numbers -/

def digitByte (d : Nat) : UInt8 := .ofNat (0x30 + d)

theorem encode_decimal (n : Nat) :
    Utf8.encode (JsonValue.ofNat n).write = (decimal n).map digitByte := by
  have hdigit : ∀ c ∈ Nat.toDigits 10 n, 48 ≤ c.toNat ∧ c.toNat ≤ 57 := by
    intro c hc
    exact isDigit_iff.mp (Nat.isDigit_of_mem_toDigits (by decide) (by decide) hc)
  have hlt : ∀ c ∈ Nat.toDigits 10 n, c.toNat < 128 := by
    intro c hc
    have hhigh := (hdigit c hc).2
    omega
  have hwrite : (JsonValue.ofNat n).write = Nat.toDigits 10 n := Nat.toList_repr
  rw [hwrite, Utf8.encode_of_forall_lt hlt, decimal, List.map_map]
  apply List.map_congr_left
  intro c hc
  have hlow := (hdigit c hc).1
  show UInt8.ofNat c.toNat = .ofNat (0x30 + (c.toNat - 48))
  rw [Nat.add_sub_cancel' hlow]

theorem digit?_digitByte : ∀ d < 10, digit? (digitByte d) = some d := by
  decide

theorem spanDigits_digits {digits : List Nat} (h : ∀ d ∈ digits, d < 10) {b : UInt8}
    (hb : digit? b = none) (rest : List UInt8) :
    spanDigits (digits.map digitByte ++ b :: rest) = (digits, b :: rest) := by
  induction digits with
  | nil => rw [List.map_nil, List.nil_append, spanDigits, hb]
  | cons d digits ih =>
    obtain ⟨hd, hdigits⟩ := List.forall_mem_cons.mp h
    rw [List.map_cons, List.cons_append, spanDigits, digit?_digitByte d hd]
    simp only [ih hdigits]

/-- What the scanner of numbers has to know of the byte behind the digits. -/
theorem IsEnd.spec {b : UInt8} (h : IsEnd b) :
    isBlank b = false ∧ digit? b = none ∧ b ≠ point ∧ isExponentMark b = false := by
  rcases h with rfl | rfl <;> decide

/-- A digit is no sign, opens no other value and is not the first letter of a word. -/
theorem digitByte_spec : ∀ d < 10, isBlank (digitByte d) = false ∧ digitByte d ≠ minus ∧
    digitByte d ≠ quote ∧ digitByte d ≠ openBracket ∧ digitByte d ≠ openBrace ∧
    digitByte d ≠ 0x6e ∧ digitByte d ≠ 0x74 ∧ digitByte d ≠ 0x66 := by
  decide

theorem scanWord_of_ne {b : UInt8} (hn : b ≠ 0x6e) (ht : b ≠ 0x74) (hf : b ≠ 0x66)
    (rest : List UInt8) : scanWord (b :: rest) = none := by
  have hword : ∀ {first : UInt8} (more : List UInt8), b ≠ first →
      (first :: more).isPrefixOf? (b :: rest) = none := by
    intro first more hne
    rw [List.isPrefixOf?, if_neg]
    intro heq
    exact hne (eq_of_beq heq).symm
  have hnull : (Utf8.encode "null".toList).isPrefixOf? (b :: rest) = none := hword _ hn
  have htrue : (Utf8.encode "true".toList).isPrefixOf? (b :: rest) = none := hword _ ht
  have hfalse : (Utf8.encode "false".toList).isPrefixOf? (b :: rest) = none := hword _ hf
  simp only [scanWord, List.findSome?_cons, hnull, htrue, hfalse, Option.map_none,
    List.findSome?_nil]

/-- The literal of a natural number. -/
def naturalLiteral (n : Nat) : NumberLiteral := ⟨false, decimal n, [], none⟩

theorem natural?_naturalLiteral (n : Nat) : (naturalLiteral n).natural? = some n :=
  congrArg some (foldl_decimal n)

theorem scanWhole_decimal (n : Nat) {b : UInt8} (hb : digit? b = none) (rest : List UInt8) :
    scanWhole ((decimal n).map digitByte ++ b :: rest) = some (decimal n, b :: rest) := by
  have hlt : ∀ d ∈ decimal n, d < 10 := fun d hd => lt_of_mem_decimal hd
  have hdigits : scanDigits ((decimal n).map digitByte ++ b :: rest) =
      some (decimal n, b :: rest) := by
    obtain ⟨d, -, more, hdecimal⟩ := exists_decimal_eq_cons n
    rw [scanDigits, spanDigits_digits hlt hb, hdecimal]
  rw [scanWhole, hdigits, Option.filter_some_pos]
  by_cases hn : n = 0
  · rw [hn]
    rfl
  · have hhead := head?_decimal_ne_zero (Nat.pos_of_ne_zero hn)
    simp [hhead]

theorem scanNumber_decimal (n : Nat) {b : UInt8} (hb : IsEnd b) (rest : List UInt8) :
    scanNumber ((decimal n).map digitByte ++ b :: rest) =
      some (naturalLiteral n, b :: rest) := by
  obtain ⟨-, hdigit, hpoint, hmark⟩ := hb.spec
  have hsign : spanMinus ((decimal n).map digitByte ++ b :: rest) =
      (false, (decimal n).map digitByte ++ b :: rest) := by
    obtain ⟨d, hd, more, hdecimal⟩ := exists_decimal_eq_cons n
    rw [hdecimal, List.map_cons, List.cons_append, spanMinus, expect,
      if_neg (digitByte_spec d hd).2.1]
  have hfraction : scanFraction (b :: rest) = some ([], b :: rest) := by
    rw [scanFraction, expect, if_neg hpoint]
  have hexponent : scanExponent (b :: rest) = some (none, b :: rest) := by
    rw [scanExponent, hmark]
    rfl
  rw [scanNumber, hsign]
  simp only [scanWhole_decimal n hdigit rest, hfraction, hexponent, Option.bind_eq_bind,
    Option.bind_some]
  rfl

theorem scans_ofNat (n : Nat) : Scans (.ofNat n) (.number (naturalLiteral n)) := by
  intro fuel b rest hb
  have hnumber := scanNumber_decimal n hb rest
  obtain ⟨d, hd, more, hdecimal⟩ := exists_decimal_eq_cons n
  obtain ⟨hblank, -, hquote, hbracket, hbrace, hn, ht, hf⟩ := digitByte_spec d hd
  rw [hdecimal, List.map_cons, List.cons_append] at hnumber
  rw [encode_decimal, hdecimal, List.map_cons, List.cons_append, scanWith,
    skipBlank_of_not_blank hblank]
  simp only [if_neg hquote, if_neg hbracket, if_neg hbrace, scanWord_of_ne hn ht hf, hnumber,
    Option.map_some]
  rfl

end JsonSource
end Contestant
