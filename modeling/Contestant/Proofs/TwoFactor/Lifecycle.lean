import Contestant.Proofs.TwoFactor.Interleaving

/-!
What a credential keeps over its life.

Once a credential is on it stays on and keeps its key: an enrolment and a confirmation are admitted
only while it is off, and no other write touches either.  So what a call has seen of a credential
that was on still holds when its write meets the live one, however old its read is.
-/

namespace Contestant
namespace TwoFactor

/-- If a credential is on, the later one is on with the same key. -/
def Credential.StaysOn (earlier later : Credential) : Prop :=
  earlier.enabled = true → later.enabled = true ∧ later.key = earlier.key

theorem Credential.StaysOn.refl (c : Credential) : c.StaysOn c := fun on => ⟨on, rfl⟩

theorem Credential.StaysOn.trans {a b c : Credential} (hab : a.StaysOn b) (hbc : b.StaysOn c) :
    a.StaysOn c := by
  intro on
  obtain ⟨onb, keyb⟩ := hab on
  obtain ⟨onc, keyc⟩ := hbc onb
  exact ⟨onc, keyc.trans keyb⟩

theorem Success.staysOn {policy : Policy} {seen before after : Credential} {request : Request}
    {reply : Reply} (h : Success policy seen before request reply after) :
    before.StaysOn after := by
  intro on
  cases h with
  | checkCode | checkScratch | regenerate => exact ⟨on, rfl⟩
  | begin off => rw [off] at on; cases on
  | confirm _ _ _ stillOff => rw [stillOff] at on; cases on

theorem Record.staysOn (r : Record) : r.before.StaysOn r.after := by
  rcases r.success_or_unchanged with h | ⟨-, hafter⟩
  · exact h.staysOn
  · rw [hafter]
    exact .refl r.before

theorem World.staysOn (w : World) (steps : List Step) : w.live.StaysOn (w.exec steps).live :=
  (history_linked w steps).rel .refl .trans fun r _ => r.staysOn

/-- However old the read of a call is, the credential it has seen has stayed on. -/
theorem seen_staysOn_before {start : Credential} {steps : List Step} {r : Record}
    (h : r ∈ (World.idle start).history steps) : r.seen.StaysOn r.before := by
  obtain ⟨earlier, between, hspans⟩ := exists_spans_of_mem_history h
  rw [hspans.seen_eq, hspans.before_eq]
  exact World.staysOn _ _

end TwoFactor
end Contestant
