import Contestant.Proofs.Text.Utf8
import Contestant.Text.Radix
import Contestant.Url.Percent
import Mathlib.Data.List.Infix

/-!
Percent-encoding read back.

`decode` undoes the escapes of a text.  Where the percent sign is among the characters that are
replaced, this gives back every text that was encoded: `decode_encode`.  Where the percent sign
stands for itself, as it does in paths, encoding makes no difference to decoding at all, and an
escape that the text brings along is undone with the others: the text comes back if it has none
(`decode_of_not_hasEscape`), and otherwise too few bytes do (`length_decode_lt`).
-/

namespace Contestant
namespace Percent

/-- The number that a hexadecimal digit of either case stands for. -/
def hexValue? (c : Char) : Option Nat :=
  (Alphabet.range '0' '9' 0 c).or <| (Alphabet.range 'A' 'F' 10 c).or <|
    Alphabet.range 'a' 'f' 10 c

/-- The byte that the two digits of an escape stand for. -/
def unescape? (high low : Char) : Option UInt8 := do
  return .ofNat (16 * (← hexValue? high) + (← hexValue? low))

/-- The bytes of a text whose escapes are undone.  A percent sign that no two digits follow stands
for itself. -/
def decode : List Char → List UInt8
  | '%' :: high :: low :: rest =>
    match unescape? high low with
    | some byte => byte :: decode rest
    | none => String.utf8EncodeChar '%' ++ decode (high :: low :: rest)
  | c :: rest => String.utf8EncodeChar c ++ decode rest
  | [] => []

/-- A percent sign with two digits behind it. -/
def startsEscape : List Char → Bool
  | '%' :: high :: low :: _ => (unescape? high low).isSome
  | _ => false

def HasEscape (text : List Char) : Prop :=
  ∃ high low, ['%', high, low] <:+: text ∧ (unescape? high low).isSome = true

/-! ## One step of decoding -/

theorem decode_cons {c : Char} {rest : List Char} (h : startsEscape (c :: rest) = false) :
    decode (c :: rest) = String.utf8EncodeChar c ++ decode rest := by
  rw [decode.eq_def (c :: rest)]
  split
  next high low tail heq =>
    cases heq
    simp only [startsEscape, Option.isSome_eq_false_iff, Option.isNone_iff_eq_none] at h
    rw [h]
  next heq =>
    cases heq
    rfl
  next heq => cases heq

theorem decode_escaped {high low : Char} {byte : UInt8} (h : unescape? high low = some byte)
    (rest : List Char) : decode ('%' :: high :: low :: rest) = byte :: decode rest := by
  rw [decode, h]

theorem startsEscape_of_ne {c : Char} (h : c ≠ '%') (rest : List Char) :
    startsEscape (c :: rest) = false := by
  unfold startsEscape
  split
  next heq =>
    cases heq
    exact absurd rfl h
  next => rfl

theorem exists_of_startsEscape {text : List Char} (h : startsEscape text = true) :
    ∃ high low byte rest, text = '%' :: high :: low :: rest ∧ unescape? high low = some byte := by
  unfold startsEscape at h
  split at h
  next high low rest =>
    obtain ⟨byte, hbyte⟩ := Option.isSome_iff_exists.mp h
    exact ⟨high, low, byte, rest, rfl, hbyte⟩
  next => cases h

theorem hexValue?_hexDigit : ∀ n < 16, hexValue? (hexDigit n) = some n := by decide

theorem unescape?_hexDigit (byte : UInt8) :
    unescape? (hexDigit (byte.toNat / 16)) (hexDigit (byte.toNat % 16)) = some byte := by
  have hbyte : byte.toNat < 256 := byte.toNat_lt
  rw [unescape?, hexValue?_hexDigit _ (by omega), hexValue?_hexDigit _ (by omega)]
  simp only [Option.bind_eq_bind, Option.bind_some, Nat.div_add_mod, UInt8.ofNat_toNat]
  rfl

theorem decode_escapes (bytes : List UInt8) (rest : List Char) :
    decode (bytes.flatMap escape ++ rest) = bytes ++ decode rest := by
  induction bytes with
  | nil => rfl
  | cons byte bytes ih =>
    rw [List.flatMap_cons, escape, List.append_assoc]
    exact (decode_escaped (unescape?_hexDigit byte) _).trans (congrArg (byte :: ·) ih)

theorem forall_mem_escapes {p : Char → Prop} (hsign : p '%') (hdigit : ∀ n < 16, p (hexDigit n))
    (bytes : List UInt8) : ∀ c ∈ bytes.flatMap escape, p c := by
  intro c hc
  obtain ⟨byte, -, hc⟩ := List.mem_flatMap.mp hc
  have hbyte : byte.toNat < 256 := byte.toNat_lt
  simp only [escape, List.mem_cons, List.not_mem_nil, or_false] at hc
  rcases hc with rfl | rfl | rfl
  · exact hsign
  · exact hdigit _ (by omega)
  · exact hdigit _ (by omega)

/-! ## Encoded texts -/

variable {keep : Char → Bool}

theorem encode_cons (c : Char) (text : List Char) :
    encode keep (c :: text) =
      (if keep c then [c] else (String.utf8EncodeChar c).flatMap escape) ++ encode keep text :=
  List.flatMap_cons

theorem encode_cons_of_keep {c : Char} (h : keep c = true) (text : List Char) :
    encode keep (c :: text) = c :: encode keep text := by
  rw [encode_cons, if_pos h, List.singleton_append]

theorem encode_cons_of_not_keep {c : Char} (h : keep c = false) (text : List Char) :
    encode keep (c :: text) = (String.utf8EncodeChar c).flatMap escape ++ encode keep text := by
  rw [encode_cons, if_neg (Bool.eq_false_iff.mp h)]

/-- What holds of the kept characters, the percent sign and the upper-case digits, holds of all
characters of an encoded text. -/
theorem forall_mem_encode {p : Char → Prop} (hkeep : ∀ c, keep c = true → p c) (hsign : p '%')
    (hdigit : ∀ n < 16, p (hexDigit n)) (text : List Char) : ∀ c ∈ encode keep text, p c := by
  intro c hc
  obtain ⟨d, -, hc⟩ := List.mem_flatMap.mp hc
  split at hc
  next hd =>
    rw [List.mem_singleton.mp hc]
    exact hkeep d hd
  next => exact forall_mem_escapes hsign hdigit _ c hc

/-- A text is read back from its encoding if the percent sign does not stand for itself. -/
theorem decode_encode (h : keep '%' = false) (text : List Char) :
    decode (encode keep text) = Utf8.encode text := by
  induction text with
  | nil => rfl
  | cons c text ih =>
    cases hc : keep c with
    | true =>
      have hne : c ≠ '%' := by
        rintro rfl
        rw [h] at hc
        cases hc
      rw [encode_cons_of_keep hc, decode_cons (startsEscape_of_ne hne _), ih]
      rfl
    | false =>
      rw [encode_cons_of_not_keep hc, decode_escapes, ih]
      rfl

/-! ## Texts that keep their percent signs -/

/-- Decoding takes a text from the front, an escape or a single character at a time. -/
@[elab_as_elim]
theorem decode_induction {motive : List Char → Prop} (nil : motive [])
    (escaped : ∀ high low byte rest, unescape? high low = some byte → motive rest →
      motive ('%' :: high :: low :: rest))
    (plain : ∀ c rest, startsEscape (c :: rest) = false → motive rest → motive (c :: rest))
    (text : List Char) : motive text := by
  induction text using decode.induct with
  | case1 high low rest byte hbyte ih => exact escaped high low byte rest hbyte ih
  | case2 high low rest hnone ih =>
    refine plain '%' (high :: low :: rest) ?_ ih
    rw [startsEscape, hnone, Option.isSome_none]
  | case3 c rest hfront ih =>
    refine plain c rest ?_ ih
    unfold startsEscape
    split
    next heq =>
      cases heq
      exact absurd rfl fun h => hfront _ _ _ h rfl
    next => rfl
  | case4 => exact nil

def isHex (c : Char) : Bool := (hexValue? c).isSome

theorem isHex_of_unescape? {high low : Char} {byte : UInt8}
    (h : unescape? high low = some byte) : isHex high = true ∧ isHex low = true := by
  unfold unescape? at h
  unfold isHex
  cases hhigh : hexValue? high with
  | none => simp [hhigh] at h
  | some a =>
    cases hlow : hexValue? low with
    | none => simp [hhigh, hlow] at h
    | some b => exact ⟨rfl, rfl⟩

/-- A digit at the front of an encoded text has stood there before. -/
theorem exists_of_encode_eq_cons {c : Char} {text rest : List Char} (hc : isHex c = true)
    (h : encode keep text = c :: rest) : ∃ more, text = c :: more ∧ encode keep more = rest := by
  cases text with
  | nil => cases h
  | cons d more =>
    cases hd : keep d with
    | true =>
      rw [encode_cons_of_keep hd, List.cons.injEq] at h
      exact ⟨more, by rw [h.1], h.2⟩
    | false =>
      rw [encode_cons_of_not_keep hd] at h
      obtain ⟨byte, bytes, hbytes⟩ : ∃ byte bytes, String.utf8EncodeChar d = byte :: bytes :=
        List.exists_cons_of_ne_nil (String.utf8EncodeChar_ne_nil)
      rw [hbytes, List.flatMap_cons, escape, List.cons_append, List.cons_append,
        List.cons.injEq] at h
      rw [← h.1] at hc
      exact absurd hc (by decide)

theorem startsEscape_encode {c : Char} {rest : List Char}
    (h : startsEscape (c :: rest) = false) : startsEscape (c :: encode keep rest) = false := by
  rw [Bool.eq_false_iff]
  intro hstarts
  obtain ⟨high, low, byte, tail, heq, hbyte⟩ := exists_of_startsEscape hstarts
  obtain ⟨rfl, hrest⟩ := List.cons.inj heq
  obtain ⟨hhigh, hlow⟩ := isHex_of_unescape? hbyte
  obtain ⟨more, rfl, hmore⟩ := exists_of_encode_eq_cons hhigh hrest
  obtain ⟨last, rfl, -⟩ := exists_of_encode_eq_cons hlow hmore
  rw [startsEscape, hbyte] at h
  cases h

/-- Where the percent sign and the digits stand for themselves, it makes no difference to decoding
whether a text is encoded first. -/
theorem decode_encode_of_keep (hsign : keep '%' = true) (hhex : ∀ c, isHex c = true → keep c = true)
    (text : List Char) : decode (encode keep text) = decode text := by
  induction text using decode_induction with
  | nil => rfl
  | escaped high low byte rest hbyte ih =>
    obtain ⟨hhigh, hlow⟩ := isHex_of_unescape? hbyte
    rw [encode_cons_of_keep hsign, encode_cons_of_keep (hhex high hhigh),
      encode_cons_of_keep (hhex low hlow), decode_escaped hbyte, decode_escaped hbyte, ih]
  | plain c rest hplain ih =>
    rw [decode_cons hplain, ← ih]
    cases hc : keep c with
    | true => rw [encode_cons_of_keep hc, decode_cons (startsEscape_encode hplain)]
    | false => rw [encode_cons_of_not_keep hc, decode_escapes]

theorem startsEscape_append {c d : Char} {text rest : List Char} (hc : isHex c = false)
    (h : startsEscape (d :: text) = false) : startsEscape (d :: (text ++ c :: rest)) = false := by
  rw [Bool.eq_false_iff]
  intro hstarts
  obtain ⟨high, low, byte, more, heq, hbyte⟩ := exists_of_startsEscape hstarts
  obtain ⟨rfl, hmore⟩ := List.cons.inj heq
  obtain ⟨hhigh, hlow⟩ := isHex_of_unescape? hbyte
  -- Both digits have to stand in front of `c`, which is none.
  match text, hmore with
  | [], hmore =>
    rw [List.nil_append, List.cons.injEq] at hmore
    rw [hmore.1, hhigh] at hc
    cases hc
  | [_], hmore =>
    simp only [List.cons_append, List.nil_append, List.cons.injEq] at hmore
    rw [hmore.2.1, hlow] at hc
    cases hc
  | _ :: _ :: _, hmore =>
    simp only [List.cons_append, List.cons.injEq] at hmore
    rw [hmore.1, hmore.2.1, startsEscape, hbyte] at h
    cases h

/-- No escape reaches into a text that begins with something else than a digit. -/
theorem decode_append {c : Char} (hc : isHex c = false) (text rest : List Char) :
    decode (text ++ c :: rest) = decode text ++ decode (c :: rest) := by
  induction text using decode_induction with
  | nil => rfl
  | escaped high low byte tail hbyte ih =>
    rw [decode_escaped hbyte, List.cons_append, List.cons_append, List.cons_append,
      decode_escaped hbyte, ih, List.cons_append]
  | plain d tail hplain ih =>
    rw [decode_cons hplain, List.append_assoc, ← ih]
    exact decode_cons (startsEscape_append hc hplain)

theorem startsEscape_iff {text : List Char} : startsEscape text = true ↔
    ∃ high low, ['%', high, low] <+: text ∧ (unescape? high low).isSome = true := by
  constructor
  · intro h
    obtain ⟨high, low, byte, rest, rfl, hbyte⟩ := exists_of_startsEscape h
    exact ⟨high, low, ⟨rest, rfl⟩, Option.isSome_of_eq_some hbyte⟩
  · rintro ⟨high, low, ⟨rest, rfl⟩, hsome⟩
    exact hsome

theorem hasEscape_cons_iff {c : Char} {rest : List Char} :
    HasEscape (c :: rest) ↔ startsEscape (c :: rest) = true ∨ HasEscape rest := by
  simp only [HasEscape, startsEscape_iff, List.infix_cons_iff, or_and_right, exists_or]

theorem not_hasEscape_nil : ¬ HasEscape [] := by
  rintro ⟨high, low, hinfix, -⟩
  cases List.eq_nil_of_infix_nil hinfix

theorem HasEscape.of_infix {part text : List Char} (h : HasEscape part) (hpart : part <:+: text) :
    HasEscape text := by
  obtain ⟨high, low, hinfix, hsome⟩ := h
  exact ⟨high, low, hinfix.trans hpart, hsome⟩

theorem length_decode_le (text : List Char) : (decode text).length ≤ Utf8.size text := by
  induction text using decode_induction with
  | nil => exact Nat.le_refl 0
  | escaped high low byte rest hbyte ih =>
    rw [decode_escaped hbyte, List.length_cons]
    simp only [Utf8.size_cons]
    have hhigh := Char.utf8Size_pos high
    omega
  | plain c rest hplain ih =>
    rw [decode_cons hplain, List.length_append, String.length_utf8EncodeChar, Utf8.size_cons]
    omega

/-- An escape takes three characters to say one byte. -/
theorem length_decode_lt {text : List Char} (h : HasEscape text) :
    (decode text).length < Utf8.size text := by
  induction text using decode_induction with
  | nil => exact absurd h not_hasEscape_nil
  | escaped high low byte rest hbyte _ =>
    have hrest := length_decode_le rest
    have hhigh := Char.utf8Size_pos high
    have hlow := Char.utf8Size_pos low
    rw [decode_escaped hbyte, List.length_cons]
    simp only [Utf8.size_cons]
    omega
  | plain c rest hplain ih =>
    have hlater : HasEscape rest := by
      rcases hasEscape_cons_iff.mp h with hstarts | hlater
      · exact absurd hstarts (Bool.eq_false_iff.mp hplain)
      · exact hlater
    have hrest := ih hlater
    rw [decode_cons hplain, List.length_append, String.length_utf8EncodeChar, Utf8.size_cons]
    omega

theorem decode_of_not_hasEscape {text : List Char} (h : ¬ HasEscape text) :
    decode text = Utf8.encode text := by
  induction text with
  | nil => rfl
  | cons c rest ih =>
    rw [hasEscape_cons_iff, not_or, Bool.not_eq_true] at h
    rw [decode_cons h.1, ih h.2]
    rfl

end Percent
end Contestant
