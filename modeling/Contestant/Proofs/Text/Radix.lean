import Contestant.Proofs.Text.Bits
import Contestant.Proofs.Text.Split
import Contestant.Text.Radix
import Mathlib.Data.List.Basic
import Mathlib.Data.Nat.ModEq

/-!
Bytes written in an alphabet of symbols are read back.

This takes no more of an alphabet than that the symbol of each value has this value, and that a
symbol stands for no more digits than a byte has, so that the filling of the last symbol does not
make up a byte of its own.  In an alphabet without a second symbol for a value nothing but the text
of some bytes is read as them, as their number settles how the last symbol is filled up.
-/

namespace Contestant
namespace Alphabet

/-- The symbol of each value has this value. -/
structure Faithful (a : Alphabet) : Prop where
  width_pos : 0 < a.width
  width_le : a.width ≤ 8
  value_symbol : ∀ n < 2 ^ a.width, a.value (a.symbol n) = some n

/-- Each value has one symbol only. -/
structure Exact (a : Alphabet) : Prop extends a.Faithful where
  lt_of_value : ∀ c n, a.value c = some n → n < 2 ^ a.width
  symbol_value : ∀ c n, a.value c = some n → a.symbol n = c

variable {a : Alphabet}

theorem exists_padRight_eq {width : Nat} (hwidth : 0 < width) (bits : List Bool) :
    ∃ filling < width, padRight width bits = bits ++ List.replicate filling false ∧
      width ∣ (padRight width bits).length := by
  refine ⟨_, Nat.mod_lt _ hwidth, rfl, ?_⟩
  have hmod := Nat.mod_lt bits.length hwidth
  rw [padRight, List.length_append, List.length_replicate, Nat.dvd_iff_mod_eq_zero,
    Nat.add_mod_mod, ← Nat.mod_add_mod, Nat.add_sub_cancel' hmod.le, Nat.mod_self]

/-- Only one filling that is shorter than a group fills the last group up. -/
theorem padRight_eq_of_dvd {width filling : Nat} {bits : List Bool} (hfilling : filling < width)
    (hdvd : width ∣ bits.length + filling) :
    padRight width bits = bits ++ List.replicate filling false := by
  obtain ⟨filling', hfilling', hpadded, hdvd'⟩ :=
    exists_padRight_eq (Nat.zero_lt_of_lt hfilling) bits
  rw [hpadded, List.length_append, List.length_replicate] at hdvd'
  have hmod : bits.length + filling' ≡ bits.length + filling [MOD width] :=
    (Nat.modEq_zero_iff_dvd.mpr hdvd').trans (Nat.modEq_zero_iff_dvd.mpr hdvd).symm
  rw [hpadded, (Nat.ModEq.add_left_cancel' _ hmod).eq_of_lt_of_lt hfilling' hfilling]

/-- The text of some bytes is made of symbols, and their values are the digits of the bytes with a
filling that is shorter than a symbol. -/
theorem Faithful.encode_spec (h : a.Faithful) (bytes : List UInt8) :
    ∃ (values : List Nat) (filling : Nat), a.encode bytes = values.map a.symbol ∧
      (∀ n ∈ values, n < 2 ^ a.width) ∧ filling < a.width ∧
      values.flatMap (Bits.ofNat a.width) =
        Bits.ofBytes bytes ++ List.replicate filling false := by
  obtain ⟨filling, hfilling, hpadded, hdvd⟩ := exists_padRight_eq h.width_pos (Bits.ofBytes bytes)
  obtain ⟨pieces, hgroups, hflatten, hpieces⟩ := Bits.groups_of_dvd h.width_pos hdvd
  refine ⟨pieces.map Bits.toNat, filling, ?_, fun n hn => ?_, hfilling, ?_⟩
  · rw [encode, hgroups, List.map_map]
    rfl
  · obtain ⟨piece, hpiece, rfl⟩ := List.mem_map.mp hn
    rw [← hpieces piece hpiece]
    exact Bits.toNat_lt piece
  · rw [Bits.flatMap_ofNat_toNat hpieces, hflatten, hpadded]

theorem Faithful.mapM_value_symbols (h : a.Faithful) {values : List Nat}
    (hvalues : ∀ n ∈ values, n < 2 ^ a.width) :
    (values.map a.symbol).mapM a.value = some values := by
  have hread := Text.mapM_map_eq_some fun n hn => h.value_symbol n (hvalues n hn)
  rwa [List.map_id'] at hread

theorem Faithful.decode?_encode (h : a.Faithful) (bytes : List UInt8) :
    a.decode? (a.encode bytes) = some bytes := by
  obtain ⟨values, filling, hencode, hvalues, hfilling, hbits⟩ := h.encode_spec bytes
  have hrest : (List.replicate filling false).length < 8 := by
    rw [List.length_replicate]
    exact Nat.lt_of_lt_of_le hfilling h.width_le
  rw [decode?, hencode, h.mapM_value_symbols hvalues, Option.bind_some, hbits,
    Bits.toBytes_ofBytes bytes hrest]
  simp [hfilling]

theorem Faithful.length_encode (h : a.Faithful) (bytes : List UInt8) :
    ∃ filling < a.width, (a.encode bytes).length * a.width = 8 * bytes.length + filling := by
  obtain ⟨values, filling, hencode, -, hfilling, hbits⟩ := h.encode_spec bytes
  refine ⟨filling, hfilling, ?_⟩
  have hlength := congrArg List.length hbits
  rw [Bits.length_flatMap_ofNat, List.length_append, Bits.length_ofBytes,
    List.length_replicate] at hlength
  rw [hencode, List.length_map, hlength]

theorem Faithful.exists_symbol_of_mem_encode (h : a.Faithful) {bytes : List UInt8} {c : Char}
    (hc : c ∈ a.encode bytes) : ∃ n < 2 ^ a.width, a.symbol n = c := by
  obtain ⟨values, filling, hencode, hvalues, -, -⟩ := h.encode_spec bytes
  rw [hencode] at hc
  obtain ⟨n, hn, rfl⟩ := List.mem_map.mp hc
  exact ⟨n, hvalues n hn, rfl⟩

theorem isSome_range (low high : Char) (first : Nat) (c : Char) :
    (range low high first c).isSome = (decide (low ≤ c) && decide (c ≤ high)) := by
  rw [range]
  split
  next h => exact h.symm
  next h => exact (Bool.eq_false_iff.mpr h).symm

theorem range_eq_some_iff {low high : Char} {first n : Nat} {c : Char} :
    range low high first c = some n ↔
      low.toNat ≤ c.toNat ∧ c.toNat ≤ high.toNat ∧ n = first + (c.toNat - low.toNat) := by
  have hlow : low ≤ c ↔ low.toNat ≤ c.toNat := UInt32.le_iff_toNat_le
  have hhigh : c ≤ high ↔ c.toNat ≤ high.toNat := UInt32.le_iff_toNat_le
  rw [range, ← hlow, ← hhigh]
  by_cases h : low ≤ c ∧ c ≤ high
  · rw [if_pos (by simpa using h), Option.some_inj, eq_comm]
    exact ⟨fun hn => ⟨h.1, h.2, hn⟩, fun hn => hn.2.2⟩
  · rw [if_neg (by simpa using h)]
    exact ⟨nofun, fun hn => absurd ⟨hn.1, hn.2.1⟩ h⟩

theorem after_sub {low c : Char} (h : low.toNat ≤ c.toNat) :
    after low (c.toNat - low.toNat) = c := by
  rw [after, Nat.add_sub_cancel' h, Char.ofNat_toNat]

/-- Symbols whose digits fill whole bytes denote bytes. -/
theorem exists_decode?_of_dvd {text : List Char}
    (hsymbols : ∀ c ∈ text, (a.value c).isSome = true) (hwidth : 0 < a.width)
    (hdvd : 8 ∣ text.length * a.width) : ∃ bytes, a.decode? text = some bytes := by
  obtain ⟨values, hvalues⟩ := Text.exists_mapM_iff.mpr hsymbols
  have hlength := congrArg List.length (Text.mapM_eq_some_iff.mp hvalues)
  rw [List.length_map, List.length_map] at hlength
  rw [hlength, ← Bits.length_flatMap_ofNat] at hdvd
  obtain ⟨pieces, hgroups, -, -⟩ := Bits.groups_of_dvd (by decide) hdvd
  refine ⟨pieces.map fun b => .ofNat (Bits.toNat b), ?_⟩
  rw [decode?, hvalues, Option.bind_some, Bits.toBytes, hgroups]
  simp [hwidth]

theorem isSome_value_of_decode? {text : List Char} {bytes : List UInt8}
    (h : a.decode? text = some bytes) : ∀ c ∈ text, (a.value c).isSome = true := by
  rw [decode?] at h
  obtain ⟨values, hvalues, -⟩ := Option.bind_eq_some_iff.mp h
  exact Text.exists_mapM_iff.mp ⟨values, hvalues⟩

/-- The digits of symbols that are read are those of the bytes with a filling that is shorter than a
symbol. -/
theorem exists_flatMap_eq_of_decode? {text : List Char} {bytes : List UInt8}
    (h : a.decode? text = some bytes) :
    ∃ (values : List Nat) (filling : Nat), text.map a.value = values.map some ∧
      filling < a.width ∧
      values.flatMap (Bits.ofNat a.width) =
        Bits.ofBytes bytes ++ List.replicate filling false := by
  rw [decode?] at h
  obtain ⟨values, hvalues, hbytes⟩ := Option.bind_eq_some_iff.mp h
  obtain ⟨happend, -⟩ := Bits.toBytes_spec (values.flatMap (Bits.ofNat a.width))
  generalize Bits.toBytes (values.flatMap (Bits.ofNat a.width)) = parts at hbytes happend
  obtain ⟨read, rest⟩ := parts
  dsimp only at hbytes happend
  by_cases hrest : (decide (rest.length < a.width) && rest.all (!·)) = true
  · rw [if_pos hrest, Option.some_inj] at hbytes
    rw [Bool.and_eq_true, decide_eq_true_eq, List.all_eq_true] at hrest
    have hzeros : rest = List.replicate rest.length false :=
      List.eq_replicate_of_mem fun b hb => by simpa using hrest.2 b hb
    refine ⟨values, rest.length, Text.mapM_eq_some_iff.mp hvalues, hrest.1, ?_⟩
    rw [← hzeros, ← hbytes, happend]
  · rw [if_neg hrest] at hbytes
    cases hbytes

theorem Exact.eq_map_symbol (h : a.Exact) {text : List Char} {values : List Nat}
    (hvalues : text.map a.value = values.map some) :
    text = values.map a.symbol ∧ ∀ n ∈ values, n < 2 ^ a.width := by
  induction text generalizing values with
  | nil =>
    rw [List.map_nil, eq_comm, List.map_eq_nil_iff] at hvalues
    subst hvalues
    exact ⟨rfl, fun n hn => (List.not_mem_nil hn).elim⟩
  | cons c text ih =>
    obtain ⟨n, values, rfl, hn, hvalues⟩ := List.map_eq_cons_iff.mp hvalues.symm
    obtain ⟨htext, hlt⟩ := ih hvalues.symm
    refine ⟨?_, List.forall_mem_cons.mpr ⟨h.lt_of_value c n hn.symm, hlt⟩⟩
    rw [List.map_cons, h.symbol_value c n hn.symm, ← htext]

/-- Bytes that are read are written as the text they were read from. -/
theorem Exact.encode_of_decode? (h : a.Exact) {text : List Char} {bytes : List UInt8}
    (hdecode : a.decode? text = some bytes) : a.encode bytes = text := by
  obtain ⟨values, filling, hvalues, hfilling, hbits⟩ := exists_flatMap_eq_of_decode? hdecode
  obtain ⟨rfl, hlt⟩ := h.eq_map_symbol hvalues
  have hdvd : a.width ∣ (Bits.ofBytes bytes).length + filling := by
    have hlength := congrArg List.length hbits
    rw [Bits.length_flatMap_ofNat, List.length_append, List.length_replicate] at hlength
    exact ⟨values.length, by rw [← hlength, Nat.mul_comm]⟩
  have hgroups : Bits.groups a.width (padRight a.width (Bits.ofBytes bytes)) =
      (values.map (Bits.ofNat a.width), []) := by
    rw [padRight_eq_of_dvd hfilling hdvd, ← hbits, List.flatMap_def,
      ← List.append_nil (List.flatten _)]
    have hempty : ([] : List Bool).length < a.width := h.width_pos
    refine Bits.groups_flatten h.width_pos hempty fun piece hpiece => ?_
    obtain ⟨n, -, rfl⟩ := List.mem_map.mp hpiece
    exact Bits.length_ofNat a.width n
  rw [encode, hgroups, List.map_map]
  refine List.map_congr_left fun n hn => ?_
  rw [Function.comp_apply, Bits.toNat_ofNat (hlt n hn)]

/-- Reading accepts exactly what writing produces. -/
theorem Exact.decode?_eq_some_iff (h : a.Exact) {text : List Char} {bytes : List UInt8} :
    a.decode? text = some bytes ↔ a.encode bytes = text := by
  refine ⟨h.encode_of_decode?, ?_⟩
  rintro rfl
  exact h.decode?_encode bytes

theorem base32_faithful : base32.Faithful where
  width_pos := by decide
  width_le := by decide
  value_symbol := by decide

/-- The symbols of base 32 are letters with values below 26 and digits with the others. -/
theorem base32_value_cases {c : Char} {n : Nat} (h : base32.value c = some n) :
    65 ≤ c.toNat ∧ c.toNat ≤ 90 ∧ n = c.toNat - 65 ∨
      50 ≤ c.toNat ∧ c.toNat ≤ 55 ∧ n = c.toNat - 50 + 26 := by
  rcases Option.or_eq_some_iff.mp h with hletter | ⟨-, hdigit⟩
  · obtain ⟨hlow, hhigh, rfl⟩ := range_eq_some_iff.mp hletter
    exact .inl ⟨hlow, hhigh, Nat.zero_add _⟩
  · obtain ⟨hlow, hhigh, rfl⟩ := range_eq_some_iff.mp hdigit
    exact .inr ⟨hlow, hhigh, Nat.add_comm _ _⟩

theorem base32_exact : base32.Exact where
  toFaithful := base32_faithful
  lt_of_value c n h := by
    have hcases := base32_value_cases h
    show n < 32
    omega
  symbol_value c n h := by
    show (if n < 26 then after 'A' n else after '2' (n - 26)) = c
    rcases base32_value_cases h with ⟨hlow, hhigh, rfl⟩ | ⟨hlow, hhigh, rfl⟩
    · rw [if_pos (by omega)]
      exact after_sub hlow
    · rw [if_neg (by omega), Nat.add_sub_cancel]
      exact after_sub hlow

end Alphabet
end Contestant
