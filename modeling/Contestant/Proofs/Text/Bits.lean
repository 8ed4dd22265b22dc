import Contestant.Text.Bits
import Mathlib.Algebra.Order.Group.Nat
import Mathlib.Data.List.Induction

/-!
Binary digits and the numbers, groups and bytes that they make up.

A run of digits is the number it denotes written at the run's own width, and a run cut into groups
is these groups put one after the other, with a rest that is shorter than a group.
-/

namespace Contestant
namespace Bits

/-! ## Numbers -/

@[simp] theorem length_ofNat (width n : Nat) : (ofNat width n).length = width := by
  induction width generalizing n with
  | zero => rfl
  | succ width ih => simp only [ofNat, List.length_append, List.length_singleton, ih]

theorem toNat_append_singleton (bits : List Bool) (b : Bool) :
    toNat (bits ++ [b]) = 2 * toNat bits + b.toNat := by
  simp only [toNat, List.foldl_append, List.foldl_cons, List.foldl_nil]

theorem toNat_ofNat {width n : Nat} (h : n < 2 ^ width) : toNat (ofNat width n) = n := by
  induction width generalizing n with
  | zero =>
    have hn : n = 0 := by omega
    rw [hn]
    rfl
  | succ width ih =>
    have hhalf : n / 2 < 2 ^ width := by
      rw [Nat.pow_succ] at h
      omega
    have hdigit : (decide (n % 2 = 1)).toNat = n % 2 := by
      rcases Nat.mod_two_eq_zero_or_one n with hn | hn <;> simp [hn]
    rw [ofNat, toNat_append_singleton, ih hhalf, hdigit]
    omega

theorem toNat_lt (bits : List Bool) : toNat bits < 2 ^ bits.length := by
  induction bits using List.reverseRecOn with
  | nil => decide
  | append_singleton bits b ih =>
    have hb : b.toNat ≤ 1 := Bool.toNat_le b
    rw [toNat_append_singleton, List.length_append, List.length_singleton, Nat.pow_succ]
    omega

theorem ofNat_toNat (bits : List Bool) : ofNat bits.length (toNat bits) = bits := by
  induction bits using List.reverseRecOn with
  | nil => rfl
  | append_singleton bits b ih =>
    have hhalf : (2 * toNat bits + b.toNat) / 2 = toNat bits := by
      cases b <;> simp only [Bool.toNat_false, Bool.toNat_true] <;> omega
    have hdigit : decide ((2 * toNat bits + b.toNat) % 2 = 1) = b := by
      cases b <;> simp [Nat.add_mod]
    rw [List.length_append, List.length_singleton, ofNat, toNat_append_singleton, hhalf, hdigit, ih]

/-- Runs of one length are told apart by the numbers that they denote. -/
theorem eq_of_toNat_eq {bits bits' : List Bool} (hlength : bits.length = bits'.length)
    (h : toNat bits = toNat bits') : bits = bits' := by
  rw [← ofNat_toNat bits, hlength, h, ofNat_toNat]

theorem toNat_append (bits more : List Bool) :
    toNat (bits ++ more) = 2 ^ more.length * toNat bits + toNat more := by
  induction more using List.reverseRecOn with
  | nil =>
    rw [List.append_nil, List.length_nil, Nat.pow_zero, Nat.one_mul]
    rfl
  | append_singleton more b ih =>
    rw [← List.append_assoc, toNat_append_singleton, ih, toNat_append_singleton,
      List.length_append, List.length_singleton, Nat.pow_succ', Nat.mul_add, Nat.mul_assoc,
      Nat.add_assoc]

/-! ## Groups -/

variable {width : Nat} {bits rest : List Bool}

theorem groups_of_length_lt (h : bits.length < width) : groups width bits = ([], bits) := by
  rw [groups, if_neg]
  simp only [List.length_take]
  omega

theorem groups_append {group : List Bool} (hwidth : 0 < width) (h : group.length = width) :
    groups width (group ++ bits) =
      (group :: (groups width bits).1, (groups width bits).2) := by
  have htake : (group ++ bits).take width = group := List.take_left' h
  have hdrop : (group ++ bits).drop width = bits := List.drop_left' h
  rw [groups, htake, hdrop, if_pos ⟨hwidth, h⟩]

theorem groups_flatten (hwidth : 0 < width) (hrest : rest.length < width)
    {pieces : List (List Bool)} (h : ∀ piece ∈ pieces, piece.length = width) :
    groups width (pieces.flatten ++ rest) = (pieces, rest) := by
  induction pieces with
  | nil => exact groups_of_length_lt hrest
  | cons piece pieces ih =>
    obtain ⟨hpiece, hpieces⟩ := List.forall_mem_cons.mp h
    rw [List.flatten_cons, List.append_assoc, groups_append hwidth hpiece, ih hpieces]

/-- What cutting into groups comes to. -/
theorem groups_spec (hwidth : 0 < width) (bits : List Bool) :
    (groups width bits).1.flatten ++ (groups width bits).2 = bits ∧
      (∀ piece ∈ (groups width bits).1, piece.length = width) ∧
      (groups width bits).2.length < width := by
  fun_induction groups width bits with
  | case1 bits group h more rest heq ih =>
    rw [heq] at ih
    obtain ⟨happend, hpieces, hrest⟩ := ih
    refine ⟨?_, ?_, hrest⟩
    · rw [List.flatten_cons, List.append_assoc, happend]
      exact List.take_append_drop width bits
    · exact List.forall_mem_cons.mpr ⟨h.2, hpieces⟩
  | case2 bits group h =>
    refine ⟨rfl, fun piece hpiece => (List.not_mem_nil hpiece).elim, ?_⟩
    simp only [group, List.length_take] at h
    show bits.length < width
    omega

theorem length_flatten_of_length {pieces : List (List Bool)}
    (h : ∀ piece ∈ pieces, piece.length = width) :
    pieces.flatten.length = pieces.length * width := by
  induction pieces with
  | nil => exact (Nat.zero_mul width).symm
  | cons piece pieces ih =>
    obtain ⟨hpiece, hpieces⟩ := List.forall_mem_cons.mp h
    rw [List.flatten_cons, List.length_append, ih hpieces, hpiece, List.length_cons, Nat.succ_mul,
      Nat.add_comm]

/-- A run whose length is a multiple of the width leaves no rest. -/
theorem groups_of_dvd (hwidth : 0 < width) (h : width ∣ bits.length) :
    ∃ pieces, groups width bits = (pieces, []) ∧ pieces.flatten = bits ∧
      ∀ piece ∈ pieces, piece.length = width := by
  obtain ⟨happend, hpieces, hrest⟩ := groups_spec hwidth bits
  have hlength := congrArg List.length happend
  rw [List.length_append, length_flatten_of_length hpieces] at hlength
  have hdvd : width ∣ (groups width bits).2.length := by
    rw [← hlength] at h
    exact (Nat.dvd_add_right (Nat.dvd_mul_left width _)).mp h
  have hnil : (groups width bits).2 = [] :=
    List.length_eq_zero_iff.mp (Nat.eq_zero_of_dvd_of_lt hdvd hrest)
  rw [hnil, List.append_nil] at happend
  exact ⟨_, Prod.ext rfl hnil, happend, hpieces⟩

/-- The numbers of groups of one width stand for the groups. -/
theorem flatMap_ofNat_toNat {pieces : List (List Bool)}
    (h : ∀ piece ∈ pieces, piece.length = width) :
    (pieces.map toNat).flatMap (ofNat width) = pieces.flatten := by
  induction pieces with
  | nil => rfl
  | cons piece pieces ih =>
    obtain ⟨rfl, hpieces⟩ := List.forall_mem_cons.mp h
    rw [List.map_cons, List.flatMap_cons, ofNat_toNat, ih hpieces, List.flatten_cons]

theorem length_flatMap_ofNat (values : List Nat) :
    (values.flatMap (ofNat width)).length = values.length * width := by
  rw [List.flatMap_def, length_flatten_of_length, List.length_map]
  intro piece hpiece
  obtain ⟨n, -, rfl⟩ := List.mem_map.mp hpiece
  exact length_ofNat width n

/-- Numbers of one width, put one after the other, are the digits of a number to the base that the
width allows. -/
theorem toNat_flatMap_ofNat {values : List Nat} (h : ∀ n ∈ values, n < 2 ^ width) :
    toNat (values.flatMap (ofNat width)) = values.foldl (fun m n => 2 ^ width * m + n) 0 := by
  induction values using List.reverseRecOn with
  | nil => rfl
  | append_singleton values n ih =>
    have hn := h n (List.mem_append_right values List.mem_cons_self)
    rw [List.flatMap_append, List.flatMap_singleton, toNat_append, length_ofNat, toNat_ofNat hn,
      ih fun m hm => h m (List.mem_append_left [n] hm), List.foldl_append, List.foldl_cons,
      List.foldl_nil]

/-! ## Bytes -/

theorem ofBytes_eq (bytes : List UInt8) :
    ofBytes bytes = (bytes.map UInt8.toNat).flatMap (ofNat 8) := by
  rw [ofBytes, List.flatMap_map]

theorem length_ofBytes (bytes : List UInt8) : (ofBytes bytes).length = 8 * bytes.length := by
  rw [ofBytes_eq, length_flatMap_ofNat, List.length_map, Nat.mul_comm]

theorem toBytes_ofBytes (bytes : List UInt8) (h : rest.length < 8) :
    toBytes (ofBytes bytes ++ rest) = (bytes, rest) := by
  have hgroups : groups 8 (ofBytes bytes ++ rest) =
      (bytes.map fun b => ofNat 8 b.toNat, rest) := by
    rw [ofBytes, List.flatMap_def]
    refine groups_flatten (by decide) h fun piece hpiece => ?_
    obtain ⟨b, -, rfl⟩ := List.mem_map.mp hpiece
    exact length_ofNat 8 b.toNat
  have hbyte : ∀ b : UInt8, UInt8.ofNat (toNat (ofNat 8 b.toNat)) = b := by
    intro b
    rw [toNat_ofNat b.toNat_lt, UInt8.ofNat_toNat]
  simp only [toBytes, hgroups, List.map_map, Function.comp_def, hbyte, List.map_id']

theorem ofBytes_injective : Function.Injective ofBytes := by
  intro bytes bytes' h
  have hread : ∀ bytes, toBytes (ofBytes bytes ++ []) = (bytes, []) := fun bytes =>
    toBytes_ofBytes bytes (by decide)
  have hpair := hread bytes
  rw [h, hread bytes'] at hpair
  exact (congrArg Prod.fst hpair).symm

/-- What cutting into bytes comes to. -/
theorem toBytes_spec (bits : List Bool) :
    ofBytes (toBytes bits).1 ++ (toBytes bits).2 = bits ∧ (toBytes bits).2.length < 8 := by
  obtain ⟨happend, hpieces, hrest⟩ := groups_spec (show 0 < 8 by decide) bits
  refine ⟨?_, hrest⟩
  have hnumbers : (groups 8 bits).1.map (UInt8.toNat ∘ fun b => .ofNat (toNat b)) =
      (groups 8 bits).1.map toNat := by
    refine List.map_congr_left fun piece hpiece => ?_
    have hlt := toNat_lt piece
    rw [hpieces piece hpiece] at hlt
    exact UInt8.toNat_ofNat_of_lt' hlt
  rw [ofBytes_eq, toBytes, List.map_map, hnumbers, flatMap_ofNat_toNat hpieces, happend]

end Bits
end Contestant
