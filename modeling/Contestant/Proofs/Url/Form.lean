import Contestant.Proofs.Text.Split
import Contestant.Proofs.Url.Percent
import Contestant.Url.Form
import Mathlib.Data.List.Basic

/-!
Queries in form encoding read back as the pairs that were written.

A name and a value are written without the marks that separate them and without a plus sign of
their own, so cutting a query at the marks gives the names and values back whatever they are.
-/

namespace Contestant
namespace Form

/-- A name or a value: plus signs are spaces, and escapes are bytes of UTF-8. -/
def decodeText? (text : List Char) : Option String :=
  (Utf8.decode? (Percent.decode (text.map fun c => if c = '+' then ' ' else c))).map String.ofList

/-- A pair, cut at its first equals sign; without one it is a name alone. -/
def decodePair? (text : List Char) : Option (String × String) := do
  let (name, value) := Text.cut '=' text
  return (← decodeText? name, ← decodeText? (value.getD []))

/-- The pairs of a query, of which empty ones do not count. -/
def decode? (query : List Char) : Option (List (String × String)) :=
  ((Text.parts '&' query).filter (· ≠ [])).mapM decodePair?

/-! ## Names and values -/

/-- The characters of an encoded name or value. -/
def isEncodedChar (c : Char) : Bool := isFormChar c || c = '+' || c = '%'

theorem isEncodedChar_hexDigit : ∀ n < 16, isEncodedChar (Percent.hexDigit n) = true := by
  decide

theorem lt_of_isAlphanum {c : Char} (h : c.isAlphanum = true) : c.toNat < 128 := by
  change ((c.isUpper || c.isLower) || c.isDigit) = true at h
  rw [Bool.or_eq_true, Bool.or_eq_true] at h
  rcases h with (hupper | hlower) | hdigit
  · have hle : c.toNat ≤ 90 := (of_decide_eq_true hupper).2
    omega
  · have hle : c.toNat ≤ 122 := of_decide_eq_true ((Bool.and_eq_true _ _).mp hlower).2
    omega
  · have hle : c.toNat ≤ 57 := of_decide_eq_true ((Bool.and_eq_true _ _).mp hdigit).2
    omega

theorem lt_of_isEncodedChar {c : Char} (h : isEncodedChar c = true) : c.toNat < 128 := by
  simp only [isEncodedChar, isFormChar, Bool.or_eq_true, decide_eq_true_eq,
    List.contains_eq_mem] at h
  rcases h with ((h | h) | rfl) | rfl
  · exact lt_of_isAlphanum h
  · have hmarks : "*-._".toList.all (·.toNat < 128) = true := by decide
    exact of_decide_eq_true (List.all_eq_true.mp hmarks c h)
  · decide
  · decide

theorem forall_mem_encodeText (text : String) : ∀ c ∈ encodeText text, isEncodedChar c = true := by
  have hkept (c : Char) (hkeep : (isFormChar c || c = ' ') = true) :
      c = ' ' ∨ isEncodedChar c = true := by
    rcases (Bool.or_eq_true _ _).mp hkeep with hform | hspace
    · exact .inr (by simp only [isEncodedChar, hform, Bool.true_or])
    · exact .inl (of_decide_eq_true hspace)
  intro c hc
  obtain ⟨d, hd, rfl⟩ := List.mem_map.mp hc
  have hencoded : d = ' ' ∨ isEncodedChar d = true :=
    Percent.forall_mem_encode hkept (.inr rfl) (fun n hn => .inr (isEncodedChar_hexDigit n hn))
      text.toList d hd
  split
  next => rfl
  next hne => exact hencoded.resolve_left hne

theorem decodeText?_encodeText (text : String) : decodeText? (encodeText text) = some text := by
  let keep : Char → Bool := fun c => isFormChar c || c = ' '
  have hplus : ∀ c ∈ Percent.encode keep text.toList, c ≠ '+' :=
    Percent.forall_mem_encode
      (fun c hkeep hc => absurd (hc ▸ hkeep) (by decide)) (by decide) (by decide) text.toList
  have hback : ((encodeText text).map fun c => if c = '+' then ' ' else c) =
      Percent.encode keep text.toList := by
    rw [encodeText, List.map_map]
    refine (List.map_congr_left fun c hc => ?_).trans (List.map_id _)
    by_cases hspace : c = ' '
    · subst hspace
      rfl
    · simp only [Function.comp_apply, if_neg hspace, if_neg (hplus c hc), id_eq]
  rw [decodeText?, hback, Percent.decode_encode (by decide), Utf8.decode?_encode, Option.map_some,
    String.ofList_toList]

/-! ## Pairs -/

theorem not_mem_encodeText {mark : Char} (h : isEncodedChar mark = false) (text : String) :
    mark ∉ encodeText text :=
  Text.not_mem_of_forall h (forall_mem_encodeText text)

theorem decodePair?_encodePair (pair : String × String) :
    decodePair? (encodePair pair) = some pair := by
  have hname : '=' ∉ encodeText pair.1 := not_mem_encodeText (by decide) pair.1
  have hcut := Text.cut_append hname (encodeText pair.2)
  simp only [decodePair?, encodePair, hcut, Option.getD_some, decodeText?_encodeText]
  rfl

theorem encodePair_ne_nil (pair : String × String) : encodePair pair ≠ [] :=
  List.append_ne_nil_of_right_ne_nil _ (List.cons_ne_nil _ _)

theorem forall_mem_encodePair (pair : String × String) :
    ∀ c ∈ encodePair pair, isEncodedChar c = true ∨ c = '=' := by
  intro c hc
  rw [encodePair, List.mem_append, List.mem_cons] at hc
  rcases hc with hc | hc | hc
  · exact .inl (forall_mem_encodeText pair.1 c hc)
  · exact .inr hc
  · exact .inl (forall_mem_encodeText pair.2 c hc)

/-- A query is cut into the pairs that it was put together from. -/
theorem parts_encode (pair : String × String) (rest : List (String × String)) :
    Text.parts '&' (encode (pair :: rest)) = (pair :: rest).map encodePair := by
  have hpair (pair : String × String) : '&' ∉ encodePair pair := fun hmem =>
    absurd (forall_mem_encodePair pair '&' hmem) (by decide)
  induction rest generalizing pair with
  | nil => exact Text.parts_of_not_mem (hpair pair)
  | cons next rest ih =>
    rw [encode, Text.parts_append (hpair pair), ih next, List.map_cons, List.map_cons,
      List.map_cons]
    exact List.cons_ne_nil next rest

theorem decode?_encode (pairs : List (String × String)) : decode? (encode pairs) = some pairs := by
  cases pairs with
  | nil => rfl
  | cons pair rest =>
    have hfilter : (((pair :: rest).map encodePair).filter (· ≠ [])) =
        (pair :: rest).map encodePair := by
      refine List.filter_eq_self.mpr fun text htext => ?_
      obtain ⟨pair, -, rfl⟩ := List.mem_map.mp htext
      exact decide_eq_true (encodePair_ne_nil pair)
    rw [decode?, parts_encode, hfilter,
      Text.mapM_map_eq_some fun pair _ => decodePair?_encodePair pair, List.map_id']

/-- A query is made of encoded names and values and the marks between them. -/
theorem forall_mem_encode (pairs : List (String × String)) :
    ∀ c ∈ encode pairs, isEncodedChar c = true ∨ c = '=' ∨ c = '&' := by
  intro c hc
  induction pairs with
  | nil => cases hc
  | cons pair rest ih =>
    have hpair (hc : c ∈ encodePair pair) : isEncodedChar c = true ∨ c = '=' ∨ c = '&' :=
      (forall_mem_encodePair pair c hc).imp_right .inl
    cases rest with
    | nil => exact hpair hc
    | cons next rest =>
      rw [encode, List.mem_append, List.mem_cons] at hc
      · rcases hc with hc | hc | hc
        · exact hpair hc
        · exact .inr (.inr hc)
        · exact ih hc
      · exact List.cons_ne_nil next rest

/-- No mark but the two that separate names and values stands in a query. -/
theorem not_mem_encode {mark : Char}
    (h : ¬ (isEncodedChar mark = true ∨ mark = '=' ∨ mark = '&'))
    (pairs : List (String × String)) : mark ∉ encode pairs :=
  fun hmem => h (forall_mem_encode pairs mark hmem)

theorem lt_of_mem_encode {pairs : List (String × String)} {c : Char} (h : c ∈ encode pairs) :
    c.toNat < 128 := by
  rcases forall_mem_encode pairs c h with h | rfl | rfl
  · exact lt_of_isEncodedChar h
  · decide
  · decide

end Form
end Contestant
