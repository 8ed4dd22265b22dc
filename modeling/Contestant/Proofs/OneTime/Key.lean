import Contestant.OneTime.Key
import Contestant.Proofs.Text.Radix
import Contestant.Proofs.Text.Utf8

/-!
What a stored key looks like, and that its bytes are those it was made from.
-/

namespace Contestant
namespace OneTime

/-- An upper-case letter or a digit from 2 to 7. -/
def isKeySymbol (c : Char) : Bool := ('A' ≤ c && c ≤ 'Z') || ('2' ≤ c && c ≤ '7')

/-- A text of the length and the symbols of a stored key. -/
structure WellFormedKey (key : String) : Prop where
  length_eq : key.length = keyLength
  isKeySymbol : ∀ c ∈ key.toList, isKeySymbol c = true

theorem isKeySymbol_symbol : ∀ n < 2 ^ Alphabet.base32.width,
    isKeySymbol (Alphabet.base32.symbol n) = true := by
  decide

theorem lt_of_isKeySymbol {c : Char} (h : isKeySymbol c = true) : c.toNat < 128 := by
  simp only [isKeySymbol, Bool.or_eq_true, Bool.and_eq_true, decide_eq_true_eq] at h
  rcases h with ⟨-, hc⟩ | ⟨-, hc⟩
  · exact Nat.lt_of_le_of_lt (UInt32.le_iff_toNat_le.mp hc) (by decide)
  · exact Nat.lt_of_le_of_lt (UInt32.le_iff_toNat_le.mp hc) (by decide)

theorem isSome_value_base32 (c : Char) : (Alphabet.base32.value c).isSome = isKeySymbol c := by
  show ((Alphabet.range 'A' 'Z' 0 c).or (Alphabet.range '2' '7' 26 c)).isSome = _
  rw [Option.isSome_or, Alphabet.isSome_range, Alphabet.isSome_range, isKeySymbol]

theorem isKeySymbol_of_mem_encode {bytes : List UInt8} {c : Char}
    (hc : c ∈ Alphabet.base32.encode bytes) : isKeySymbol c = true := by
  obtain ⟨n, hn, rfl⟩ := Alphabet.base32_faithful.exists_symbol_of_mem_encode hc
  exact isKeySymbol_symbol n hn

theorem length_encode_base32 {bytes : List UInt8} (h : bytes.length = 20) :
    (Alphabet.base32.encode bytes).length = keyLength := by
  obtain ⟨filling, hfilling, hlength⟩ := Alphabet.base32_faithful.length_encode bytes
  have hwidth : Alphabet.base32.width = 5 := rfl
  rw [h, hwidth] at hlength
  rw [hwidth] at hfilling
  rw [keyLength]
  omega

theorem wellFormedKey_freshKey (random : Vector UInt8 20) : WellFormedKey (freshKey random) where
  length_eq := by
    rw [freshKey, encodeKey, String.length_ofList, length_encode_base32 Vector.length_toList]
  isKeySymbol c hc := by
    rw [freshKey, encodeKey, String.toList_ofList] at hc
    exact isKeySymbol_of_mem_encode hc

/-- A text is the stored form of some key if it looks like one. -/
theorem exists_decodeKey_iff {stored : String} :
    (∃ key, decodeKey stored = .ok key) ↔ WellFormedKey stored := by
  have hsymbols : (∀ c ∈ stored.toList, (Alphabet.base32.value c).isSome = true) ↔
      ∀ c ∈ stored.toList, isKeySymbol c = true := by
    simp only [isSome_value_base32]
  have hsize : (∀ c ∈ stored.toList, isKeySymbol c = true) →
      Utf8.size stored.toList = stored.length := fun h => by
    rw [Utf8.size_eq_length fun c hc => lt_of_isKeySymbol (h c hc), String.length_toList]
  rw [decodeKey]
  constructor
  · rintro ⟨key, hkey⟩
    split at hkey
    next => cases hkey
    next hlength =>
      split at hkey
      next bytes hbytes =>
        have hkeySymbols := hsymbols.mp (Alphabet.isSome_value_of_decode? hbytes)
        exact ⟨by rw [← hsize hkeySymbols]; exact not_not.mp hlength, hkeySymbols⟩
      next => cases hkey
  · rintro ⟨hlength, hkeySymbols⟩
    have hdvd : 8 ∣ stored.toList.length * Alphabet.base32.width := by
      rw [String.length_toList, hlength]
      decide
    obtain ⟨key, hkey⟩ :=
      Alphabet.exists_decode?_of_dvd (hsymbols.mpr hkeySymbols) (by decide) hdvd
    refine ⟨key, ?_⟩
    rw [if_neg (not_not.mpr ((hsize hkeySymbols).trans hlength)), hkey]

/-- All that is not a stored key is refused alike. -/
theorem eq_of_decodeKey_error {stored : String} {fault : InputFault}
    (h : decodeKey stored = .error fault) : fault = .malformedSecret := by
  rw [decodeKey] at h
  split at h
  next => exact (Except.error.inj h).symm
  next =>
    split at h
    next => cases h
    next => exact (Except.error.inj h).symm

/-- Every twenty bytes make a stored key. -/
theorem decodeKey_encodeKey {bytes : List UInt8} (h : bytes.length = 20) :
    decodeKey (encodeKey bytes) = .ok bytes := by
  have hsize : Utf8.size (Alphabet.base32.encode bytes) = keyLength := by
    rw [Utf8.size_eq_length fun c hc => lt_of_isKeySymbol (isKeySymbol_of_mem_encode hc),
      length_encode_base32 h]
  rw [decodeKey, encodeKey, String.toList_ofList, if_neg (not_not_intro hsize),
    Alphabet.base32_faithful.decode?_encode]

theorem decodeKey_freshKey (random : Vector UInt8 20) :
    decodeKey (freshKey random) = .ok random.toList :=
  decodeKey_encodeKey (Vector.length_toList)

end OneTime
end Contestant
