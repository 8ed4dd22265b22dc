import Contestant.Proofs.Number.Decimal
import Contestant.Proofs.Scratch.Consumption
import Contestant.Proofs.Text.Utf8
import Mathlib.Data.List.TakeWhile

/-!
Scratch codes as their owner types them: in letters of either case, with white space around them.
-/

namespace Contestant

namespace Text

theorem dropWhile_isBlank_append {blanks text : List Char} (hblanks : blanks.all isBlank = true)
    (htext : ∀ c ∈ text.head?, isBlank c = false) :
    (blanks ++ text).dropWhile isBlank = text := by
  rw [List.dropWhile_append_of_pos (List.all_eq_true.mp hblanks)]
  cases text with
  | nil => rfl
  | cons c text =>
    have hc := htext c rfl
    rw [List.dropWhile_cons_of_neg (Bool.not_eq_true _ ▸ hc)]

theorem trim_append {before letters after : List Char} (hbefore : before.all isBlank = true)
    (hafter : after.all isBlank = true) (hletters : ∀ c ∈ letters, isBlank c = false) :
    trim (before ++ letters ++ after) = letters := by
  have hafter' : after.reverse.all isBlank = true := by rw [List.all_reverse, hafter]
  cases letters with
  | nil =>
    have hblanks : (before ++ after).dropWhile isBlank = [] := by
      rw [List.dropWhile_append_of_pos (List.all_eq_true.mp hbefore), List.dropWhile_eq_nil_iff]
      exact List.all_eq_true.mp hafter
    rw [trim, List.append_nil, hblanks]
    rfl
  | cons c letters =>
    have hfront : (before ++ (c :: letters ++ after)).dropWhile isBlank =
        c :: letters ++ after := by
      refine dropWhile_isBlank_append hbefore fun d hd => ?_
      rw [List.cons_append, List.head?_cons, Option.mem_some_iff] at hd
      exact hd ▸ hletters c List.mem_cons_self
    have hback : (after.reverse ++ (c :: letters).reverse).dropWhile isBlank =
        (c :: letters).reverse := by
      refine dropWhile_isBlank_append hafter' fun d hd => ?_
      exact hletters d (List.mem_reverse.mp (List.mem_of_mem_head? hd))
    rw [trim, List.append_assoc, hfront, List.reverse_append, hback, List.reverse_reverse]

end Text

namespace Scratch

/-- The code in letters of either case, with any white space around it. -/
def Spells (typed code : String) : Prop :=
  ∃ before letters after, typed.toList = before ++ letters ++ after ∧
    before.all Text.isBlank = true ∧ after.all Text.isBlank = true ∧
    letters.map Char.toUpper = code.toList

theorem isSymbol_iff {c : Char} :
    isSymbol c = true ↔ (65 ≤ c.toNat ∧ c.toNat ≤ 90) ∨ (48 ≤ c.toNat ∧ c.toNat ≤ 57) := by
  have hupper : c.isUpper = true ↔ 65 ≤ c.toNat ∧ c.toNat ≤ 90 := decide_eq_true_iff
  rw [isSymbol, Bool.or_eq_true, hupper, isDigit_iff]

theorem toUpper_eq_self {c : Char} (h : c.toNat < 97 ∨ 122 < c.toNat) : c.toUpper = c := by
  refine dif_neg (c := 'a'.val ≤ c.val ∧ c.val ≤ 'z'.val) ?_
  simp only [UInt32.le_iff_toNat_le]
  rintro ⟨hlow, hhigh⟩
  change 97 ≤ c.toNat at hlow
  change c.toNat ≤ 122 at hhigh
  omega

/-- No white space turns into a symbol in upper case. -/
theorem isBlank_of_isSymbol_toUpper {c : Char} (h : isSymbol c.toUpper = true) :
    Text.isBlank c = false := by
  rw [Bool.eq_false_iff]
  intro hblank
  simp only [Text.isBlank, Bool.or_eq_true, Bool.and_eq_true, decide_eq_true_eq] at hblank
  rw [toUpper_eq_self (by omega), isSymbol_iff] at h
  omega

theorem lt_of_isSymbol {c : Char} (h : isSymbol c = true) : c.toNat < 128 := by
  rw [isSymbol_iff] at h
  omega

theorem Code.size_symbols (code : Code) : Utf8.size code.symbols = codeLength := by
  obtain ⟨symbols, hlength, hsymbols⟩ := code
  rw [Utf8.size_eq_length, hlength]
  exact fun c hc => lt_of_isSymbol (List.all_eq_true.mp hsymbols c hc)

theorem Code.normalForm_of_spells {code : Code} {typed : String} (h : Spells typed code.text) :
    normalForm typed = code.text := by
  obtain ⟨before, letters, after, htyped, hbefore, hafter, hletters⟩ := h
  rw [text, String.toList_ofList] at hletters
  have hblank : ∀ c ∈ letters, Text.isBlank c = false := by
    intro c hc
    have hmem : c.toUpper ∈ code.symbols := hletters ▸ List.mem_map_of_mem hc
    exact isBlank_of_isSymbol_toUpper (List.all_eq_true.mp code.wellFormed.2 _ hmem)
  rw [normalForm, Codes.normalize, htyped, Text.trim_append hbefore hafter hblank, hletters, text]

namespace Codes

/-- A candidate for one of the codes is used, and the code's first occurrence is removed. -/
theorem exists_consume_of_mem {c : Codes} {candidate : String}
    (h : normalForm candidate ∈ c.texts) :
    ∃ rest, c.consume candidate = some rest ∧
      rest.texts = c.texts.erase (normalForm candidate) := by
  obtain ⟨code, hcode, htext⟩ := List.mem_map.mp h
  have hsymbols := Code.text_eq_normalForm_iff.mp htext
  have hany : c.codes.any (fun code => code.symbols = normalize candidate) = true :=
    List.any_eq_true.mpr ⟨code, hcode, decide_eq_true hsymbols⟩
  have hsize : Utf8.size (normalize candidate) = codeLength := hsymbols ▸ code.size_symbols
  have hconsume : c.consume candidate =
      some ⟨c.codes.eraseP fun code => code.symbols = normalize candidate⟩ := by
    simp only [consume, if_neg (not_not_intro hsize), hany, if_true]
  obtain ⟨earlier, later, htexts, hearlier, hrest⟩ := texts_of_consume hconsume
  refine ⟨_, hconsume, ?_⟩
  rw [hrest, htexts, List.erase_append_right _ hearlier, List.erase_cons_head]

theorem isSome_consume_iff {c : Codes} {candidate : String} :
    (c.consume candidate).isSome = true ↔ normalForm candidate ∈ c.texts := by
  constructor
  · intro h
    obtain ⟨rest, hrest⟩ := Option.isSome_iff_exists.mp h
    obtain ⟨earlier, later, htexts, -⟩ := texts_of_consume hrest
    rw [htexts]
    exact List.mem_append_right earlier List.mem_cons_self
  · intro h
    obtain ⟨rest, hrest, -⟩ := exists_consume_of_mem h
    rw [hrest, Option.isSome_some]

end Codes
end Scratch
end Contestant
