import Contestant.Proofs.TwoFactor.Call
import Mathlib.Data.List.Induction

/-!
Calls in flight on one account, their reads and writes in any order.

A run is a list of steps, each of them the read or the write of some call, and its history is the
list of the calls that finish, in the order of their writes.  `history_linked` says that a history
is a chain: each call finds the credential as the call before it left it.
`exists_spans_of_mem_history` goes back from a finished call to its read: what the call has seen
is the credential that was live at an earlier point of the run.
-/

namespace Contestant
namespace TwoFactor

/-- A step of some call.  The step at which an enrolment reads marks its arrival, since its
decision is the same for every credential. -/
inductive Step
  | read (id : Nat) (call : Call)
  | finish (id : Nat)

def Step.id : Step → Nat
  | read id _ => id
  | finish id => id

/-- The live credential and the calls between their read and their write. -/
structure World where
  live : Credential
  flights : Nat → Option Flight

namespace World

def idle (live : Credential) : World := ⟨live, fun _ => none⟩

/-- The record of a call that finishes now. -/
def record (w : World) (id : Nat) : Option Record :=
  (w.flights id).map fun flight => { flight with id, before := w.live }

/-- A read notes the live credential, and the rest of the call is one atomic step.  A call that is
never finished was given up or lost its store, as was one whose number is taken by another. -/
def next (w : World) : Step → World
  | .read id call =>
    { w with flights := fun i => if i = id then some { call with seen := w.live } else w.flights i }
  | .finish id =>
    { live := (w.record id).elim w.live Record.after
      flights := fun i => if i = id then none else w.flights i }

def exec (w : World) (steps : List Step) : World := steps.foldl next w

/-- The calls that finish in a run, in the order of their writes. -/
def history (w : World) : List Step → List Record
  | [] => []
  | .read id call :: rest => (w.next (.read id call)).history rest
  | .finish id :: rest => (w.record id).toList ++ (w.next (.finish id)).history rest

@[simp] theorem idle_live (c : Credential) : (idle c).live = c := rfl

@[simp] theorem next_finish_live (w : World) (id : Nat) :
    (w.next (.finish id)).live = (w.record id).elim w.live Record.after := rfl

@[simp] theorem exec_nil (w : World) : w.exec [] = w := rfl

@[simp] theorem exec_cons (w : World) (s : Step) (rest : List Step) :
    w.exec (s :: rest) = (w.next s).exec rest := rfl

theorem exec_append (w : World) (a b : List Step) : w.exec (a ++ b) = (w.exec a).exec b := by
  simp only [exec, List.foldl_append]

theorem history_append (w : World) (a b : List Step) :
    w.history (a ++ b) = w.history a ++ (w.exec a).history b := by
  induction a generalizing w with
  | nil => rfl
  | cons s rest ih =>
    cases s with
    | read id call =>
      simp only [List.cons_append, history, exec_cons]
      exact ih _
    | finish id =>
      simp only [List.cons_append, history, exec_cons, List.append_assoc]
      rw [ih]

end World

/-! ## A history is a chain -/

/-- Each call finds the credential as the call before it left it. -/
def Linked (first : Credential) : List Record → Credential → Prop
  | [], last => last = first
  | r :: rest, last => r.before = first ∧ Linked r.after rest last

theorem history_linked (w : World) (steps : List Step) :
    Linked w.live (w.history steps) (w.exec steps).live := by
  induction steps generalizing w with
  | nil => rfl
  | cons s rest ih =>
    cases s with
    | read id call => exact ih (w.next (.read id call))
    | finish id =>
      have hrest := ih (w.next (.finish id))
      simp only [World.history, World.exec_cons]
      cases hr : w.record id with
      | none =>
        have hlive : (w.next (.finish id)).live = w.live := by
          rw [World.next_finish_live, hr, Option.elim_none]
        rw [hlive] at hrest
        exact hrest
      | some r =>
        have hlive : (w.next (.finish id)).live = r.after := by
          rw [World.next_finish_live, hr, Option.elim_some]
        have hbefore : r.before = w.live := by
          simp only [World.record, Option.map_eq_some_iff] at hr
          obtain ⟨flight, -, rfl⟩ := hr
          rfl
        rw [hlive] at hrest
        exact ⟨hbefore, hrest⟩

theorem linked_append {first last : Credential} {a b : List Record} :
    Linked first (a ++ b) last ↔ ∃ middle, Linked first a middle ∧ Linked middle b last := by
  induction a generalizing first with
  | nil =>
    constructor
    · intro h
      exact ⟨first, rfl, h⟩
    · rintro ⟨middle, hfirst, h⟩
      rw [show middle = first from hfirst] at h
      exact h
  | cons r rest ih =>
    simp only [List.cons_append, Linked, ih]
    constructor
    · rintro ⟨hbefore, middle, hrest, hb⟩
      exact ⟨middle, ⟨hbefore, hrest⟩, hb⟩
    · rintro ⟨middle, ⟨hbefore, hrest⟩, hb⟩
      exact ⟨hbefore, middle, hrest, hb⟩

/-- What every call keeps of the credential, the whole run keeps. -/
theorem Linked.rel {R : Credential → Credential → Prop} (hrefl : ∀ c, R c c)
    (htrans : ∀ {a b c}, R a b → R b c → R a c) {history : List Record}
    (hrecord : ∀ r ∈ history, R r.before r.after) {first last : Credential}
    (h : Linked first history last) :
    R first last := by
  induction history generalizing first with
  | nil =>
    rw [show last = first from h]
    exact hrefl first
  | cons r rest ih =>
    obtain ⟨rfl, hrest⟩ := h
    obtain ⟨hr, hrecord⟩ := List.forall_mem_cons.mp hrecord
    exact htrans hr (ih hrecord hrest)

/-! ## From a finished call back to its read -/

/-- A call in flight has read the credential, and none of its steps came after. -/
theorem exists_read_of_flight {start : Credential} {steps : List Step} {id : Nat}
    {flight : Flight} (h : ((World.idle start).exec steps).flights id = some flight) :
    ∃ earlier between, steps = earlier ++ .read id flight.toCall :: between ∧
      (∀ s ∈ between, s.id ≠ id) ∧ flight.seen = ((World.idle start).exec earlier).live := by
  induction steps using List.reverseRecOn with
  | nil => cases h
  | append_singleton steps s ih =>
    rw [World.exec_append] at h
    by_cases hid : s.id = id
    · subst hid
      cases s with
      | read i call =>
        simp only [World.exec_cons, World.exec_nil, World.next, Step.id, if_true,
          Option.some.injEq] at h
        subst h
        exact ⟨steps, [], rfl, fun s hs => absurd hs List.not_mem_nil, rfl⟩
      | finish i =>
        simp only [World.exec_cons, World.exec_nil, World.next, Step.id, if_true] at h
        cases h
    · have hflight : ((World.idle start).exec steps).flights id = some flight := by
        cases s with
        | read i call =>
          have hne : id ≠ i := Ne.symm hid
          simpa only [World.exec_cons, World.exec_nil, World.next, if_neg hne] using h
        | finish i =>
          have hne : id ≠ i := Ne.symm hid
          simpa only [World.exec_cons, World.exec_nil, World.next, if_neg hne] using h
      obtain ⟨earlier, between, rfl, hbetween, hseen⟩ := ih hflight
      refine ⟨earlier, between ++ [s], by simp, fun s' hs' => ?_, hseen⟩
      rcases List.mem_append.mp hs' with hs' | hs'
      · exact hbetween s' hs'
      · rw [List.mem_singleton.mp hs']
        exact hid

theorem exists_finish_of_mem_history {w : World} {steps : List Step} {r : Record}
    (h : r ∈ w.history steps) :
    ∃ front later, steps = front ++ .finish r.id :: later ∧
      (w.exec front).flights r.id = some r.toFlight ∧ r.before = (w.exec front).live := by
  induction steps generalizing w with
  | nil => cases h
  | cons s rest ih =>
    cases s with
    | read id call =>
      obtain ⟨front, later, rfl, hflight, hbefore⟩ := ih (w := w.next (.read id call)) h
      exact ⟨.read id call :: front, later, rfl, hflight, hbefore⟩
    | finish id =>
      rcases List.mem_append.mp h with hr | hr
      · simp only [World.record, Option.mem_toList, Option.map_eq_some_iff] at hr
        obtain ⟨flight, hflight, rfl⟩ := hr
        exact ⟨[], rest, rfl, hflight, rfl⟩
      · obtain ⟨front, later, rfl, hflight, hbefore⟩ := ih (w := w.next (.finish id)) hr
        exact ⟨.finish id :: front, later, rfl, hflight, hbefore⟩

/-- In a run, the call of a record reads after the steps `earlier` and finishes after the steps
`between`, which are not its own. -/
structure Record.Spans (r : Record) (start : Credential) (steps earlier between : List Step) :
    Prop where
  steps_eq : ∃ later, steps = earlier ++ .read r.id r.toCall :: (between ++ .finish r.id :: later)
  not_own : ∀ s ∈ between, s.id ≠ r.id
  seen_eq : r.seen = ((World.idle start).exec earlier).live
  before_eq :
    r.before = (((World.idle start).exec earlier).exec (.read r.id r.toCall :: between)).live

theorem exists_spans_of_mem_history {start : Credential} {steps : List Step} {r : Record}
    (h : r ∈ (World.idle start).history steps) :
    ∃ earlier between, r.Spans start steps earlier between := by
  obtain ⟨front, later, rfl, hflight, hbefore⟩ := exists_finish_of_mem_history h
  obtain ⟨earlier, between, rfl, hbetween, hseen⟩ := exists_read_of_flight hflight
  refine ⟨earlier, between, ⟨later, by simp⟩, hbetween, hseen, ?_⟩
  rw [hbefore, World.exec_append]

end TwoFactor
end Contestant
