import Contestant.Proofs.Scratch.Consumption
import Contestant.Proofs.Scratch.StoredText
import Contestant.Proofs.TwoFactor.Interleaving

/-!
Where the scratch codes go that an account is given.

A scratch code is spent by a write that replaces the stored text as a whole, and which takes place
only if the text is still the one that the call has read.  The text may have been away and come
back in between.  That does no harm, for the codes that a text stands for are the same each time,
and it is of those that the write takes one away.
-/

namespace Contestant
namespace TwoFactor

open Scratch

/-- The unused scratch codes; a text that cannot be read stands for none. -/
def Credential.unusedCodes (c : Credential) : List String :=
  match Codes.parse c.scratch with
  | .ok codes => codes.texts
  | .error _ => []

/-- The code that a scratch code check has accepted. -/
def Record.spent (r : Record) : Option String :=
  match r.request with
  | .checkScratch code => if r.reply = .accepted true then some (normalForm code) else none
  | _ => none

/-- The codes that an enrolment or a regeneration has stored. -/
def Record.stored (r : Record) : Option (List String) :=
  match r.reply with
  | .enrolled _ | .issued _ => some r.after.unusedCodes
  | .accepted _ | .refused _ => none

/-- The codes that have been spent, in the order of the writes. -/
def spentCodes (history : List Record) : List String := history.flatMap fun r => r.spent.toList

def storedCodes (history : List Record) : List String := history.flatMap fun r => r.stored.getD []

/-! ## One call -/

theorem Credential.unusedCodes_of_parse {c : Credential} {codes : Codes}
    (h : Codes.parse c.scratch = .ok codes) : c.unusedCodes = codes.texts := by
  simp only [unusedCodes, h]

/-- The write has taken the first occurrence of a code out of the stored codes and has kept all
else. -/
structure Spends (before after : Credential) (code : String) : Prop where
  texts : ∃ live rest earlier later,
    Codes.parse before.scratch = .ok live ∧ Codes.parse after.scratch = .ok rest ∧
      live.texts = earlier ++ code :: later ∧ code ∉ earlier ∧ rest.texts = earlier ++ later
  others : after = { before with scratch := after.scratch }

theorem Success.spends {policy : Policy} {seen before after : Credential} {code : String}
    {reply : Reply} (h : Success policy seen before (.checkScratch code) reply after) :
    Spends before after (normalForm code) := by
  cases h with
  | @checkScratch code codes rest on parsed consumed kept =>
    obtain ⟨earlier, later, htexts⟩ := Codes.texts_of_consume consumed
    refine ⟨⟨codes, rest, earlier, later, ?_, Codes.parse_toJson rest, htexts⟩, rfl⟩
    rw [kept]
    exact parsed

theorem Spends.count_eq {before after : Credential} {code : String}
    (h : Spends before after code) (c : String) :
    [code].count c + after.unusedCodes.count c = before.unusedCodes.count c := by
  obtain ⟨live, rest, earlier, later, hbefore, hafter, hlive, -, hrest⟩ := h.texts
  rw [Credential.unusedCodes_of_parse hbefore, Credential.unusedCodes_of_parse hafter, hlive,
    hrest]
  simp only [List.count_append, List.count_cons, List.count_nil]
  omega

namespace Record

theorem spends {r : Record} {code : String} (hrequest : r.request = .checkScratch code)
    (hreply : r.reply = .accepted true) : Spends r.before r.after (normalForm code) := by
  have hs : r.succeeded = true := by
    rw [succeeded, hreply]
    rfl
  have h := success_of_succeeded hs
  rw [hrequest] at h
  exact h.spends

theorem request_of_spent {r : Record} {c : String} (h : r.spent = some c) :
    ∃ code, r.request = .checkScratch code ∧ r.reply = .accepted true ∧ normalForm code = c := by
  unfold spent at h
  split at h
  next code hrequest =>
    simp only [Option.ite_none_right_eq_some, Option.some.injEq] at h
    exact ⟨code, hrequest, h⟩
  next => cases h

theorem unusedCodes_eq {r : Record} (hspent : r.spent = none) (hstored : r.stored = none) :
    r.after.unusedCodes = r.before.unusedCodes := by
  rcases r.success_or_unchanged with h | ⟨-, hafter⟩
  · unfold spent at hspent
    unfold stored at hstored
    generalize r.after = after at *
    generalize r.reply = reply at *
    generalize r.request = request at *
    cases h with
    | checkCode | confirm => rfl
    | checkScratch => cases hspent
    | begin | regenerate => cases hstored
  · rw [hafter]

theorem unusedCodes_of_stored {r : Record} {codes : List String} (h : r.stored = some codes) :
    r.after.unusedCodes = codes := by
  unfold stored at h
  split at h <;> cases h <;> rfl

theorem count_balance (r : Record) (c : String) :
    r.spent.toList.count c + r.after.unusedCodes.count c ≤
      r.before.unusedCodes.count c + (r.stored.getD []).count c := by
  cases hspent : r.spent with
  | some code =>
    obtain ⟨code, hrequest, hreply, rfl⟩ := request_of_spent hspent
    have hcount := (spends hrequest hreply).count_eq c
    simp only [Option.toList_some]
    omega
  | none =>
    simp only [Option.toList_none, List.count_nil, Nat.zero_add]
    cases hstored : r.stored with
    | none =>
      rw [unusedCodes_eq hspent hstored]
      simp
    | some codes =>
      rw [unusedCodes_of_stored hstored, Option.getD_some]
      exact Nat.le_add_left _ _

end Record

/-! ## A run -/

/-- What is spent and what is left is no more than what was there and what has been stored. -/
theorem Linked.count_balance {history : List Record} {first last : Credential}
    (h : Linked first history last) (c : String) :
    (spentCodes history).count c + last.unusedCodes.count c ≤
      first.unusedCodes.count c + (storedCodes history).count c := by
  induction history generalizing first with
  | nil =>
    rw [show last = first from h]
    simp [spentCodes, storedCodes]
  | cons r rest ih =>
    obtain ⟨rfl, hrest⟩ := h
    have hone := r.count_balance c
    have hall := ih hrest
    simp only [spentCodes, storedCodes, List.flatMap_cons, List.count_append] at hall ⊢
    omega

theorem Linked.not_mem_spentCodes {history : List Record} {first last : Credential} {c : String}
    (h : Linked first history last) (hfirst : c ∉ first.unusedCodes)
    (hstored : c ∉ storedCodes history) : c ∉ spentCodes history := by
  have hbalance := h.count_balance c
  rw [List.count_eq_zero_of_not_mem hfirst, List.count_eq_zero_of_not_mem hstored] at hbalance
  rw [← List.count_eq_zero]
  omega

/-- From whatever credential a run starts and however its calls interleave: a scratch code check
that accepts finds the code among those that are live at its write and takes it away once, a code
is accepted at most as often as it was there and has been stored since, and after codes have been
stored without it it is not accepted until it is stored again. -/
theorem scratch_codes_accounted (start : Credential) (steps : List Step) :
    let history := (World.idle start).history steps
    (∀ r ∈ history, ∀ code, r.request = .checkScratch code → r.reply = .accepted true →
      Spends r.before r.after (normalForm code)) ∧
    (∀ c, (spentCodes history).count c ≤
      start.unusedCodes.count c + (storedCodes history).count c) ∧
    ∀ earlier r between later codes c, history = earlier ++ r :: (between ++ later) →
      r.stored = some codes → c ∉ codes → c ∉ storedCodes between → c ∉ spentCodes between := by
  intro history
  have hlinked : Linked start history _ := history_linked (World.idle start) steps
  refine ⟨fun r _ code => Record.spends, fun c => ?_, ?_⟩
  · have hbalance := hlinked.count_balance c
    omega
  · intro earlier r between later codes c hhistory hcodes hc hbetween
    rw [hhistory] at hlinked
    obtain ⟨middle, -, -, hrest⟩ := linked_append.mp hlinked
    obtain ⟨last, hfrom, -⟩ := linked_append.mp hrest
    have hafter : c ∉ r.after.unusedCodes := by
      rw [Record.unusedCodes_of_stored hcodes]
      exact hc
    exact hfrom.not_mem_spentCodes hafter hbetween

end TwoFactor
end Contestant
