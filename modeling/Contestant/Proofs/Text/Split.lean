import Contestant.Text.Split
import Mathlib.Data.List.Basic

/-!
Texts cut at a separator, and put together again.
-/

namespace Contestant
namespace Text

theorem not_mem_of_forall {p : Char → Bool} {mark : Char} (h : p mark = false) {text : List Char}
    (htext : ∀ c ∈ text, p c = true) : mark ∉ text := fun hmem =>
  Bool.false_ne_true (h.symm.trans (htext mark hmem))

/-- What stands before the first mark, and what behind it if there is one. -/
def cut (mark : Char) : List Char → List Char × Option (List Char)
  | [] => ([], none)
  | c :: rest =>
    if c = mark then ([], some rest)
    else
      let (before, after) := cut mark rest
      (c :: before, after)

theorem cut_append {mark : Char} {before : List Char} (h : mark ∉ before) (after : List Char) :
    cut mark (before ++ mark :: after) = (before, some after) := by
  induction before with
  | nil => simp only [List.nil_append, cut, if_true]
  | cons c before ih =>
    obtain ⟨hc, hbefore⟩ := List.ne_and_not_mem_of_not_mem_cons h
    simp only [List.cons_append, cut, if_neg (Ne.symm hc), ih hbefore]

theorem cut_of_not_mem {mark : Char} {text : List Char} (h : mark ∉ text) :
    cut mark text = (text, none) := by
  induction text with
  | nil => rfl
  | cons c text ih =>
    obtain ⟨hc, htext⟩ := List.ne_and_not_mem_of_not_mem_cons h
    simp only [cut, if_neg (Ne.symm hc), ih htext]

variable {separator : Char}

theorem parts_cons_separator (text : List Char) :
    parts separator (separator :: text) = [] :: parts separator text := by
  rw [parts, if_pos rfl]

theorem parts_append_part {part : List Char} (h : separator ∉ part) (text : List Char) :
    parts separator (part ++ text) = (parts separator text).modifyHead (part ++ ·) := by
  induction part with
  | nil =>
    rw [List.nil_append]
    cases parts separator text <;> rfl
  | cons c part ih =>
    obtain ⟨hc, hpart⟩ := List.ne_and_not_mem_of_not_mem_cons h
    rw [List.cons_append, parts, if_neg (Ne.symm hc), ih hpart]
    cases htext : parts separator text with
    | nil => exact absurd htext (parts_ne_nil separator text)
    | cons first more => rfl

theorem parts_append {part : List Char} (h : separator ∉ part) (text : List Char) :
    parts separator (part ++ separator :: text) = part :: parts separator text := by
  rw [parts_append_part h, parts_cons_separator, List.modifyHead_cons, List.append_nil]

theorem parts_of_not_mem {part : List Char} (h : separator ∉ part) :
    parts separator part = [part] := by
  have hparts := parts_append_part h []
  rw [List.append_nil] at hparts
  rw [hparts, parts, List.modifyHead_cons, List.append_nil]

/-- Each part with a separator before it. -/
theorem flatMap_parts (separator : Char) (text : List Char) :
    (parts separator text).flatMap (separator :: ·) = separator :: text := by
  induction text with
  | nil => rfl
  | cons c text ih =>
    by_cases hc : c = separator
    · subst hc
      rw [parts_cons_separator, List.flatMap_cons, ih]
      rfl
    · rw [parts, if_neg hc]
      cases htext : parts separator text with
      | nil => exact absurd htext (parts_ne_nil separator text)
      | cons first more =>
        rw [htext, List.flatMap_cons] at ih
        simp only [List.cons_append, List.cons.injEq, true_and] at ih
        simp only [List.flatMap_cons, List.cons_append, ih]

theorem infix_of_mem_parts {text part : List Char} (h : part ∈ parts separator text) :
    part <:+: text := by
  obtain ⟨earlier, later, hparts⟩ := List.append_of_mem h
  have hjoin := flatMap_parts separator text
  rw [hparts, List.flatMap_append, List.flatMap_cons] at hjoin
  cases earlier with
  | nil =>
    simp only [List.flatMap_nil, List.nil_append, List.cons_append, List.cons.injEq,
      true_and] at hjoin
    exact ⟨[], _, hjoin⟩
  | cons first earlier =>
    simp only [List.flatMap_cons, List.cons_append, List.cons.injEq, true_and] at hjoin
    exact ⟨first ++ earlier.flatMap (separator :: ·) ++ [separator],
      later.flatMap (separator :: ·), by simp [← hjoin]⟩

/-! ## Pieces -/

/-- What is written piece by piece reads back piece by piece. -/
theorem mapM_map_eq_some {α β γ : Type} {write : α → β} {read : β → Option γ} {value : α → γ}
    {pieces : List α} (h : ∀ piece ∈ pieces, read (write piece) = some (value piece)) :
    (pieces.map write).mapM read = some (pieces.map value) := by
  induction pieces with
  | nil => rfl
  | cons piece rest ih =>
    obtain ⟨hpiece, hrest⟩ := List.forall_mem_cons.mp h
    rw [List.map_cons, List.mapM_cons, hpiece, ih hrest]
    rfl

/-- Every piece is read, and to nothing but its value. -/
theorem mapM_eq_some_iff {α β : Type} {read : α → Option β} {pieces : List α} {values : List β} :
    pieces.mapM read = some values ↔ pieces.map read = values.map some := by
  induction pieces generalizing values with
  | nil => cases values <;> simp
  | cons piece rest ih =>
    rw [List.mapM_cons, List.map_cons]
    cases hpiece : read piece with
    | none => cases values <;> simp
    | some value =>
      cases values with
      | nil => cases rest.mapM read <;> simp
      | cons first values =>
        rw [List.map_cons, List.cons.injEq, ← ih]
        cases rest.mapM read <;> simp

theorem exists_mapM_iff {α β : Type} {read : α → Option β} {pieces : List α} :
    (∃ values, pieces.mapM read = some values) ↔
      ∀ piece ∈ pieces, (read piece).isSome = true := by
  constructor
  · rintro ⟨values, hvalues⟩ piece hpiece
    have hmem : read piece ∈ values.map some := by
      rw [← mapM_eq_some_iff.mp hvalues]
      exact List.mem_map_of_mem hpiece
    obtain ⟨value, -, hvalue⟩ := List.mem_map.mp hmem
    rw [← hvalue, Option.isSome_some]
  · intro h
    induction pieces with
    | nil => exact ⟨[], rfl⟩
    | cons piece rest ih =>
      obtain ⟨hpiece, hrest⟩ := List.forall_mem_cons.mp h
      obtain ⟨value, hvalue⟩ := Option.isSome_iff_exists.mp hpiece
      obtain ⟨values, hvalues⟩ := ih hrest
      refine ⟨value :: values, mapM_eq_some_iff.mpr ?_⟩
      rw [List.map_cons, hvalue, mapM_eq_some_iff.mp hvalues, List.map_cons]

end Text
end Contestant
