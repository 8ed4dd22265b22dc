import Contestant.Proofs.Scratch.Typed
import Mathlib.Data.List.Basic

/-!
Candidates that are compared with an account's codes one after the other.

A candidate takes the first occurrence of its normal form out of the codes, if there is one left.
Over a whole run each occurrence is therefore spent once: candidates of one form are used until as
many have come as there were occurrences, and those taken out are the first ones.
-/

namespace Contestant
namespace Scratch

/-! ## First occurrences -/

/-- The texts that are left when each text loses its first `spent text` occurrences: an entry stays
if that many equal ones come before it. -/
def withoutFirst (spent : String → Nat) (texts : List String) : List String :=
  (texts.zipIdx.filter fun entry => spent entry.1 ≤ (texts.take entry.2).count entry.1).map
    Prod.fst

section

variable {spent : String → Nat} {text : String} {texts : List String}

/-- The first entry stays if none like it is to be taken out; else it counts as one of these. -/
theorem withoutFirst_cons : withoutFirst spent (text :: texts) =
    (if spent text = 0 then [text] else []) ++
      withoutFirst (fun other => spent other - if text = other then 1 else 0) texts := by
  have hrest : (texts.zipIdx 1).filter (fun entry =>
      spent entry.1 ≤ ((text :: texts).take entry.2).count entry.1) =
      (texts.zipIdx.filter fun entry => spent entry.1 - (if text = entry.1 then 1 else 0) ≤
        (texts.take entry.2).count entry.1).map fun entry => (entry.1, entry.2 + 1) := by
    rw [List.zipIdx_succ, List.filter_map]
    congr 1
    refine List.filter_congr fun entry _ => decide_eq_decide.mpr ?_
    simp only [List.take_succ_cons, List.count_cons, beq_iff_eq]
    omega
  rw [withoutFirst, List.zipIdx_cons, List.filter_cons, Nat.zero_add, hrest]
  split
  next hzero =>
    rw [if_pos (by simpa using hzero), List.map_cons, List.map_map]
    rfl
  next hne =>
    rw [if_neg (by simpa using hne), List.map_map]
    rfl

/-- Taking texts out one after the other takes out the first occurrences. -/
theorem diff_eq_withoutFirst (texts forms : List String) :
    texts.diff forms = withoutFirst (fun text => forms.count text) texts := by
  induction texts generalizing forms with
  | nil => rw [List.nil_diff]; rfl
  | cons text texts ih =>
    have hcounts : (fun other => forms.count other - if text = other then 1 else 0) =
        fun other => (forms.erase text).count other := by
      funext other
      simp only [List.count_erase, beq_iff_eq]
    rw [withoutFirst_cons, hcounts, ← ih, List.cons_diff]
    by_cases hmem : text ∈ forms
    · rw [if_pos hmem, if_neg (by rwa [List.count_eq_zero, not_not]), List.nil_append]
    · rw [if_neg hmem, if_pos (List.count_eq_zero.mpr hmem), List.erase_of_not_mem hmem,
        List.singleton_append]

/-- There are no more to take out than there are. -/
theorem withoutFirst_min (spent : String → Nat) (texts : List String) :
    withoutFirst (fun text => min (spent text) (texts.count text)) texts =
      withoutFirst spent texts := by
  rw [withoutFirst, withoutFirst]
  congr 1
  refine List.filter_congr fun entry hentry => decide_eq_decide.mpr ?_
  obtain ⟨hi, htext⟩ := List.mem_zipIdx' hentry
  have hcount : (texts.take entry.2).count entry.1 < texts.count entry.1 := by
    conv_rhs => rw [← List.take_append_drop entry.2 texts, List.drop_eq_getElem_cons hi, ← htext]
    rw [List.count_append, List.count_cons_self]
    omega
  omega

end

/-! ## One candidate after the other -/

namespace Codes

/-- The codes after a candidate: those but the one that it used, or all. -/
def next (c : Codes) (candidate : String) : Codes := (c.consume candidate).getD c

/-- The codes after some candidates, one after the other. -/
def left (c : Codes) (candidates : List String) : Codes := candidates.foldl next c

/-- Whether each of some candidates, one after the other, is used. -/
def answers (c : Codes) : List String → List Bool
  | [] => []
  | candidate :: rest => (c.consume candidate).isSome :: (c.next candidate).answers rest

/-- How many of some candidates have a form and are used. -/
def spent (c : Codes) (candidates : List String) (form : String) : Nat :=
  ((candidates.map normalForm).zip (c.answers candidates)).count (form, true)

@[simp] theorem left_nil (c : Codes) : c.left [] = c := rfl

@[simp] theorem left_cons (c : Codes) (candidate : String) (rest : List String) :
    c.left (candidate :: rest) = (c.next candidate).left rest := rfl

theorem next_of_not_used {c : Codes} {candidate : String}
    (h : (c.consume candidate).isSome = false) : c.next candidate = c := by
  rw [Option.isSome_eq_false_iff, Option.isNone_iff_eq_none] at h
  rw [next, h, Option.getD_none]

theorem texts_next (c : Codes) (candidate : String) :
    (c.next candidate).texts = c.texts.erase (normalForm candidate) := by
  by_cases hmem : normalForm candidate ∈ c.texts
  · obtain ⟨rest, hconsume, hrest⟩ := exists_consume_of_mem hmem
    rw [next, hconsume, Option.getD_some, hrest]
  · rw [next_of_not_used (by rwa [← isSome_consume_iff, Bool.not_eq_true] at hmem),
      List.erase_of_not_mem hmem]

theorem isSome_consume_eq (c : Codes) (candidate : String) :
    (c.consume candidate).isSome = decide (0 < c.texts.count (normalForm candidate)) := by
  rw [Bool.eq_iff_iff, isSome_consume_iff, decide_eq_true_eq, List.count_pos_iff]

theorem size_eq (c : Codes) : c.size = c.texts.length := (List.length_map Code.text).symm

theorem size_next_add (c : Codes) (candidate : String) :
    (c.next candidate).size + (if (c.consume candidate).isSome then 1 else 0) = c.size := by
  rw [size_eq, size_eq, texts_next, List.length_erase, isSome_consume_eq]
  by_cases hmem : normalForm candidate ∈ c.texts
  · have hpos := List.length_pos_of_mem hmem
    simp only [hmem, List.count_pos_iff, if_true, decide_true]
    omega
  · simp only [hmem, List.count_pos_iff, if_false, decide_false, Bool.false_eq_true, Nat.add_zero]

/-! ## A run of candidates -/

theorem texts_left (c : Codes) (candidates : List String) :
    (c.left candidates).texts = c.texts.diff (candidates.map normalForm) := by
  induction candidates generalizing c with
  | nil => rfl
  | cons candidate rest ih =>
    rw [left_cons, ih, texts_next, List.map_cons, List.diff_cons]

theorem getElem?_answers (c : Codes) (candidates : List String) (i : Nat) :
    (c.answers candidates)[i]? = (candidates.map normalForm)[i]?.map fun form =>
      decide (((candidates.map normalForm).take i).count form < c.texts.count form) := by
  induction candidates generalizing c i with
  | nil => rfl
  | cons candidate rest ih =>
    rw [answers, List.map_cons]
    cases i with
    | zero => rw [isSome_consume_eq]; rfl
    | succ i =>
      rw [List.getElem?_cons_succ, List.getElem?_cons_succ, ih, texts_next]
      refine congrArg (Option.map · _) (funext fun form => decide_eq_decide.mpr ?_)
      rw [List.take_succ_cons, List.count_cons, List.count_erase]
      omega

/-- A form is used as often as it comes up among the candidates and among the codes. -/
theorem spent_eq (c : Codes) (candidates : List String) (form : String) :
    c.spent candidates form =
      min ((candidates.map normalForm).count form) (c.texts.count form) := by
  induction candidates generalizing c with
  | nil => exact (Nat.zero_min _).symm
  | cons candidate rest ih =>
    have hstep : c.spent (candidate :: rest) form = (c.next candidate).spent rest form +
        if (normalForm candidate, (c.consume candidate).isSome) = (form, true) then 1 else 0 := by
      simp only [spent, answers, List.map_cons, List.zip_cons_cons, List.count_cons, beq_iff_eq]
    rw [hstep, ih, texts_next, isSome_consume_eq, List.map_cons, List.count_cons, List.count_erase]
    by_cases hform : normalForm candidate = form
    · subst hform
      simp only [beq_self_eq_true, if_true, Prod.mk.injEq, true_and, decide_eq_true_eq]
      split <;> omega
    · simp only [beq_iff_eq, hform, if_false, Prod.mk.injEq, false_and, Nat.sub_zero, Nat.add_zero]

theorem count_answers_add_size (c : Codes) (candidates : List String) :
    (c.answers candidates).count true + (c.left candidates).size = c.size := by
  induction candidates generalizing c with
  | nil => exact Nat.zero_add _
  | cons candidate rest ih =>
    have hone := c.size_next_add candidate
    have hrest := ih (c.next candidate)
    rw [answers, List.count_cons, beq_true, left_cons]
    omega

theorem left_take_succ {c : Codes} {candidates : List String} {i : Nat}
    (h : (c.answers candidates)[i]? = some false) :
    c.left (candidates.take (i + 1)) = c.left (candidates.take i) := by
  induction candidates generalizing c i with
  | nil => cases h
  | cons candidate rest ih =>
    rw [answers] at h
    rw [List.take_succ_cons, left_cons]
    cases i with
    | zero =>
      rw [List.getElem?_cons_zero, Option.some.injEq] at h
      rw [next_of_not_used h, List.take_zero, List.take_zero]
    | succ i =>
      rw [List.getElem?_cons_succ] at h
      rw [List.take_succ_cons, left_cons, ih h]

/-- Of any codes each occurrence is spent once.  A candidate is used if fewer candidates of its form
came before it than there are codes of that form; those used have taken out the first occurrences
and left the others in order, and the others have changed nothing. -/
theorem occurrences_spent_once (c : Codes) (candidates : List String) :
    let forms := candidates.map normalForm
    (∀ i, (c.answers candidates)[i]? = forms[i]?.map fun form =>
      decide ((forms.take i).count form < c.texts.count form)) ∧
    (∀ form, c.spent candidates form = min (forms.count form) (c.texts.count form)) ∧
    (c.left candidates).texts = withoutFirst (c.spent candidates) c.texts ∧
    (∀ i, (c.answers candidates)[i]? = some false →
      c.left (candidates.take (i + 1)) = c.left (candidates.take i)) ∧
    (c.answers candidates).count true + (c.left candidates).size = c.size := by
  intro forms
  refine ⟨getElem?_answers c candidates, spent_eq c candidates, ?_, fun _ => left_take_succ,
    count_answers_add_size c candidates⟩
  rw [texts_left, diff_eq_withoutFirst, funext (spent_eq c candidates), withoutFirst_min]

/-- Two of three codes are alike.  The third candidate has the length of a code in bytes, and the
fourth comes too late. -/
theorem occurrences_spent_once_alike :
    let a : Code := ⟨List.replicate 16 'A', by decide⟩
    let b : Code := ⟨List.replicate 16 'B', by decide⟩
    let c : Codes := ⟨[a, b, a]⟩
    let candidates :=
      [" aaaaaaaaaaaaaaaa", "AAAAAAAAAAAAAAAA\t", "éééééééé", "aAaAaAaAaAaAaAaA"]
    c.answers candidates = [true, true, false, false] ∧
    (c.left candidates).texts = [b.text] ∧
    c.left (candidates.take 3) = c.left (candidates.take 2) := by
  intro a b c candidates
  have hanswers : c.answers candidates = [true, true, false, false] := by decide +kernel
  have htexts : (c.left candidates).texts = [b.text] := by decide +kernel
  have hthird : (c.answers candidates)[2]? = some false := by rw [hanswers]; rfl
  obtain ⟨-, -, -, hunchanged, -⟩ := occurrences_spent_once c candidates
  exact ⟨hanswers, htexts, hunchanged 2 hthird⟩

end Codes
end Scratch
end Contestant
