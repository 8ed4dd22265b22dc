import Contestant.Digest.Block
import Contestant.Proofs.OneTime.Key

/-!
Stored keys and the bytes of keys, one to one.

The 32 symbols of a stored key and its twenty bytes are the digits of one number, to the base 32 and
to the base 256.  `Denotes` says this without cutting anything into binary digits, so it fixes both
directions at once: which bytes a stored key is read as, and, since no symbol has a second one for
its value, which text these bytes are stored as.
-/

namespace Contestant
namespace OneTime

/-- The symbols of stored keys, each in the place of its value. -/
def keySymbols : List Char := "ABCDEFGHIJKLMNOPQRSTUVWXYZ234567".toList

/-- The number whose digits to the base 32 the symbols of a stored key are, highest first. -/
def keyNumber (stored : String) : Nat :=
  stored.toList.foldl (fun n c => 32 * n + keySymbols.idxOf c) 0

/-- A stored key denotes the twenty bytes that are the digits of its number to the base 256. -/
structure Denotes (stored : String) (key : List UInt8) : Prop where
  wellFormed : WellFormedKey stored
  length_eq : key.length = 20
  number_eq : keyNumber stored = Digest.fromBigEndian key

/-- What a text is read as, by conditions of which exactly one holds. -/
inductive ReadsAs (stored : String) : Except InputFault (List UInt8) → Prop
  | key {key : List UInt8} (denotes : Denotes stored key) : ReadsAs stored (.ok key)
  | malformedSecret (not_wellFormed : ¬ WellFormedKey stored) :
    ReadsAs stored (.error .malformedSecret)

variable {stored stored' : String} {key key' : List UInt8}

/-! ## Numbers -/

theorem toNat_ofBytes (bytes : List UInt8) :
    Bits.toNat (Bits.ofBytes bytes) = Digest.fromBigEndian bytes := by
  have hlt : ∀ n ∈ bytes.map UInt8.toNat, n < 2 ^ 8 := by
    intro n hn
    obtain ⟨b, -, rfl⟩ := List.mem_map.mp hn
    exact b.toNat_lt
  rw [Bits.ofBytes_eq, Bits.toNat_flatMap_ofNat hlt, List.foldl_map]
  rfl

theorem eq_of_fromBigEndian_eq (hlength : key.length = key'.length)
    (h : Digest.fromBigEndian key = Digest.fromBigEndian key') : key = key' := by
  rw [← toNat_ofBytes, ← toNat_ofBytes] at h
  refine Bits.ofBytes_injective (Bits.eq_of_toNat_eq ?_ h)
  rw [Bits.length_ofBytes, Bits.length_ofBytes, hlength]

theorem idxOf_symbol : ∀ n < 2 ^ Alphabet.base32.width,
    keySymbols.idxOf (Alphabet.base32.symbol n) = n := by
  decide

theorem keyNumber_of_symbols {values : List Nat}
    (hstored : stored.toList = values.map Alphabet.base32.symbol)
    (hlt : ∀ n ∈ values, n < 2 ^ Alphabet.base32.width) :
    keyNumber stored = Bits.toNat (values.flatMap (Bits.ofNat Alphabet.base32.width)) := by
  have hvalues : stored.toList.map keySymbols.idxOf = values := by
    rw [hstored, List.map_map]
    exact (List.map_congr_left fun n hn => idxOf_symbol n (hlt n hn)).trans (List.map_id values)
  rw [Bits.toNat_flatMap_ofNat hlt, keyNumber, ← hvalues, List.foldl_map]
  rfl

theorem keyNumber_encodeKey (h : key.length = 20) :
    keyNumber (encodeKey key) = Digest.fromBigEndian key := by
  obtain ⟨values, filling, hencode, hlt, hfilling, hbits⟩ :=
    Alphabet.base32_faithful.encode_spec key
  have hstored : (encodeKey key).toList = values.map Alphabet.base32.symbol := by
    rw [encodeKey, String.toList_ofList, hencode]
  -- Twenty bytes have 160 digits, which fill 32 symbols.
  have hnone : filling = 0 := by
    have hdigits := congrArg List.length hbits
    rw [Bits.length_flatMap_ofNat, List.length_append, Bits.length_ofBytes, List.length_replicate,
      h] at hdigits
    have hwidth : Alphabet.base32.width = 5 := rfl
    rw [hwidth] at hdigits hfilling
    omega
  rw [keyNumber_of_symbols hstored hlt, hbits, hnone, List.replicate_zero, List.append_nil,
    toNat_ofBytes]

/-! ## Reading -/

theorem decode?_of_decodeKey (h : decodeKey stored = .ok key) :
    Alphabet.base32.decode? stored.toList = some key := by
  rw [decodeKey] at h
  by_cases hsize : Utf8.size stored.toList ≠ keyLength
  · rw [if_pos hsize] at h
    cases h
  · rw [if_neg hsize] at h
    cases hdecode : Alphabet.base32.decode? stored.toList with
    | none =>
      rw [hdecode] at h
      cases h
    | some bytes =>
      rw [hdecode] at h
      rw [Except.ok.inj h]

theorem encodeKey_of_decodeKey (h : decodeKey stored = .ok key) : encodeKey key = stored := by
  rw [encodeKey, Alphabet.base32_exact.decode?_eq_some_iff.mp (decode?_of_decodeKey h),
    String.ofList_toList]

theorem length_of_decodeKey (h : decodeKey stored = .ok key) : key.length = 20 := by
  have hlength := (exists_decodeKey_iff.mp ⟨key, h⟩).length_eq
  rw [← encodeKey_of_decodeKey h, encodeKey, String.length_ofList] at hlength
  obtain ⟨filling, hfilling, hdigits⟩ := Alphabet.base32_faithful.length_encode key
  have hwidth : Alphabet.base32.width = 5 := rfl
  rw [hlength, keyLength, hwidth] at hdigits
  rw [hwidth] at hfilling
  omega

theorem denotes_of_decodeKey (h : decodeKey stored = .ok key) : Denotes stored key where
  wellFormed := exists_decodeKey_iff.mp ⟨key, h⟩
  length_eq := length_of_decodeKey h
  number_eq := by rw [← encodeKey_of_decodeKey h, keyNumber_encodeKey (length_of_decodeKey h)]

theorem Denotes.eq (h : Denotes stored key) (h' : Denotes stored key') : key = key' :=
  eq_of_fromBigEndian_eq (h.length_eq.trans h'.length_eq.symm)
    (h.number_eq.symm.trans h'.number_eq)

theorem decodeKey_of_denotes (h : Denotes stored key) : decodeKey stored = .ok key := by
  obtain ⟨key', hkey'⟩ := exists_decodeKey_iff.mpr h.wellFormed
  rw [hkey', h.eq (denotes_of_decodeKey hkey')]

theorem decodeKey_eq_of_readsAs {outcome : Except InputFault (List UInt8)}
    (h : ReadsAs stored outcome) : decodeKey stored = outcome := by
  cases h with
  | key hdenotes => exact decodeKey_of_denotes hdenotes
  | malformedSecret hwellFormed =>
    cases hkey : decodeKey stored with
    | ok key => exact absurd (exists_decodeKey_iff.mp ⟨key, hkey⟩) hwellFormed
    | error fault => rw [eq_of_decodeKey_error hkey]

theorem decodeKey_eq_iff {outcome : Except InputFault (List UInt8)} :
    decodeKey stored = outcome ↔ ReadsAs stored outcome := by
  refine ⟨?_, decodeKey_eq_of_readsAs⟩
  rintro rfl
  cases hkey : decodeKey stored with
  | ok key => exact .key (denotes_of_decodeKey hkey)
  | error fault =>
    rw [eq_of_decodeKey_error hkey]
    refine .malformedSecret fun hwellFormed => ?_
    obtain ⟨key, hkey'⟩ := exists_decodeKey_iff.mpr hwellFormed
    rw [hkey] at hkey'
    cases hkey'

/-- A key is read from the text that it is stored as, and from no other. -/
theorem decodeKey_eq_ok_iff (random : Vector UInt8 20) :
    decodeKey stored = .ok random.toList ↔ freshKey random = stored := by
  constructor
  · exact encodeKey_of_decodeKey
  · rintro rfl
    exact decodeKey_freshKey random

/-- Stored keys and the bytes of keys correspond one to one.  A text is read as the twenty bytes
that it denotes if it is 32 symbols of a stored key, and is refused if it is not; it is read as some
random bytes if it is what these are stored as; and of two texts that are read as the same bytes the
second is the first. -/
theorem stored_keys_and_bytes_correspond (stored : String) :
    (∀ outcome, decodeKey stored = outcome ↔ ReadsAs stored outcome) ∧
    (∀ random : Vector UInt8 20, decodeKey stored = .ok random.toList ↔ freshKey random = stored) ∧
    ∀ stored', (∃ key, decodeKey stored = .ok key ∧ decodeKey stored' = .ok key) ↔
      WellFormedKey stored ∧ stored = stored' := by
  refine ⟨fun _ => decodeKey_eq_iff, decodeKey_eq_ok_iff, fun stored' => ⟨?_, ?_⟩⟩
  · rintro ⟨key, hkey, hkey'⟩
    refine ⟨exists_decodeKey_iff.mp ⟨key, hkey⟩, ?_⟩
    rw [← encodeKey_of_decodeKey hkey, encodeKey_of_decodeKey hkey']
  · rintro ⟨hwellFormed, rfl⟩
    obtain ⟨key, hkey⟩ := exists_decodeKey_iff.mpr hwellFormed
    exact ⟨key, hkey, hkey⟩

/-- The seed of the test vectors of RFC 6238. -/
example : decodeKey "GEZDGNBVGY3TQOJQGEZDGNBVGY3TQOJQ" =
    .ok ("12345678901234567890".toList.map fun c => .ofNat c.toNat) := by
  decide +kernel

end OneTime
end Contestant
