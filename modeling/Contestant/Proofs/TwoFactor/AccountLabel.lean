import Contestant.Form.Forms
import Contestant.Proofs.OneTime.ProvisioningUri
import Contestant.TwoFactor.Account

/-!
Which accounts an authenticator finds under their own names.

An enrolment puts the issuer and the name of the account into the path of its URI, and a path does
not show every text as it is.  An account is named rightly exactly if its label is plain;
registration asks for no more than a length, so other names get through.
-/

namespace Contestant
namespace Url

/-- The bytes that a URI shows in its path. -/
def shownPath? (uri : String) : Option (List UInt8) :=
  (components? uri.toList).map fun parts => Percent.decode parts.path

end Url

namespace TwoFactor

open OneTime Url

/-- What an enrolment should show of an account. -/
def label (username : String) : List Char := issuer.toList ++ ':' :: username.toList

theorem label_inj {a b : String} : label a = label b ↔ a = b := by
  simp only [label, List.append_cancel_left_eq, List.cons.injEq, true_and, String.toList_inj]

theorem shownPath?_enrollment (policy : Policy) (username : String) (random : Vector UInt8 20)
    (draws : List Scratch.Draw) :
    shownPath? (Request.enrollment policy username random draws).uri =
      some (Percent.decode (path (label username))) :=
  congrArg (Option.map _) (components?_provisioningUri policy.verifier _ username issuer)

section Enrolled

variable {a a' : Account} {policy policy' : Policy} {username username' : String}
  {random random' : Vector UInt8 20} {draws draws' : List Scratch.Draw} {e e' : Enrollment}

theorem Account.enrollment_of_begin
    (h : (a.serve policy (.begin username random draws)).1 = .enrolled e) :
    e = Request.enrollment policy username random draws := by
  simp only [serve, Request.reads, Bool.false_eq_true, if_false, Request.decide, carryOut] at h
  split at h
  · cases h
  · cases h
    rfl
  · cases h

theorem shownPath?_enrolled
    (h : (a.serve policy (.begin username random draws)).1 = .enrolled e) :
    shownPath? e.uri = some (Percent.decode (path (label username))) := by
  rw [Account.enrollment_of_begin h, shownPath?_enrollment]

/-- The path of an enrolment shows the issuer and the whole name of the account exactly if the two
together are a text that a path shows as it is. -/
theorem enrollment_shows_account_iff
    (h : (a.serve policy (.begin username random draws)).1 = .enrolled e) :
    shownPath? e.uri = some (Utf8.encode ('/' :: label username)) ↔ Plain (label username) := by
  rw [shownPath?_enrolled h, Option.some_inj, decode_path_iff]

/-- Accounts with plain labels are told apart. -/
theorem username_eq_of_shownPath?_eq
    (h : (a.serve policy (.begin username random draws)).1 = .enrolled e)
    (h' : (a'.serve policy' (.begin username' random' draws')).1 = .enrolled e')
    (hplain : Plain (label username)) (hplain' : Plain (label username'))
    (hshown : shownPath? e.uri = shownPath? e'.uri) : username = username' := by
  rw [shownPath?_enrolled h, shownPath?_enrolled h', Option.some_inj,
    decode_path_of_plain hplain, decode_path_of_plain hplain', Utf8.encode_inj] at hshown
  exact label_inj.mp (List.cons.inj hshown).2

end Enrolled

theorem enrollment_shows_account_iff_punctuated :
    let policy : Policy := ⟨Verifier.standard, 1⟩
    let random : Vector UInt8 20 := Vector.replicate 20 0
    let e := Request.enrollment policy "ada/é.%" random []
    (({ live := .fresh } : Account).serve policy (.begin "ada/é.%" random [])).1 = .enrolled e ∧
    (shownPath? e.uri = some (Utf8.encode ('/' :: label "ada/é.%")) ↔ Plain (label "ada/é.%")) := by
  intro policy random e
  have h : (({ live := .fresh } : Account).serve policy (.begin "ada/é.%" random [])).1 =
      .enrolled e := rfl
  exact ⟨h, enrollment_shows_account_iff h⟩

/-- A registration may pass its checks with a name that an enrolment does not show: of `%41lice`
it shows `Alice`. -/
theorem registered_account_may_be_misnamed :
    ¬ ∀ r : Registration, r.form.violations = [] →
      ∀ (a : Account) (policy : Policy) (random : Vector UInt8 20) (draws : List Scratch.Draw)
        (e : Enrollment), (a.serve policy (.begin r.username random draws)).1 = .enrolled e →
          shownPath? e.uri = some (Utf8.encode ('/' :: label r.username)) := by
  intro h
  have hshown := h ⟨"%41lice", "secret"⟩ (by decide) { live := .fresh } ⟨Verifier.standard, 1⟩
    (Vector.replicate 20 0) [] _ rfl
  rw [shownPath?_enrollment, Option.some_inj] at hshown
  have hlabel : Percent.decode (path (label "%41lice")) = Utf8.encode ('/' :: label "Alice") := by
    decide +kernel
  rw [hlabel, Utf8.encode_inj, List.cons.injEq, label_inj] at hshown
  exact absurd hshown.2 (by decide)

end TwoFactor
end Contestant
