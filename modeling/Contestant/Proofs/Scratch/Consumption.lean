import Contestant.Scratch.Codes

/-!
What using a scratch code does to the codes of an account.
-/

namespace Contestant
namespace Scratch

/-- The text as which a candidate is compared with the codes. -/
def normalForm (candidate : String) : String := String.ofList (Codes.normalize candidate)

theorem Code.text_eq_normalForm_iff {code : Code} {candidate : String} :
    code.text = normalForm candidate ↔ code.symbols = Codes.normalize candidate := by
  rw [Code.text, normalForm]
  exact String.ofList_inj

namespace Codes

/-- A candidate that is used is one of the codes, and its first occurrence is removed. -/
theorem texts_of_consume {c rest : Codes} {candidate : String}
    (h : c.consume candidate = some rest) :
    ∃ earlier later, c.texts = earlier ++ normalForm candidate :: later ∧
      normalForm candidate ∉ earlier ∧ rest.texts = earlier ++ later := by
  simp only [consume] at h
  split at h
  · cases h
  · split at h
    next hany =>
      cases h
      obtain ⟨code, hcode, hsymbols⟩ := List.any_eq_true.mp hany
      obtain ⟨first, earlier, later, hearlier, hfirst, hcodes, herase⟩ :=
        List.exists_of_eraseP
          (p := fun code : Code => decide (code.symbols = normalize candidate)) hcode hsymbols
      have hfirst' : first.text = normalForm candidate :=
        Code.text_eq_normalForm_iff.mpr (of_decide_eq_true hfirst)
      refine ⟨earlier.map Code.text, later.map Code.text, ?_, ?_, ?_⟩
      · simp only [texts, hcodes, List.map_append, List.map_cons, hfirst']
      · intro hmem
        obtain ⟨other, hother, htext⟩ := List.mem_map.mp hmem
        exact hearlier other hother (decide_eq_true (Code.text_eq_normalForm_iff.mp htext))
      · simp only [texts, herase, List.map_append]
    next => cases h

end Codes
end Scratch
end Contestant
