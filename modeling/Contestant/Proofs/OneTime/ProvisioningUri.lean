import Contestant.OneTime.ProvisioningUri
import Contestant.Proofs.Url.Form
import Contestant.Proofs.Url.Path

/-!
A provisioning URI comes apart where it was put together.

The path may hold neither of the marks that end it, and the query neither of those that separate
its pairs, so whoever reads the URI finds the issuer and the account in the path only, and the
parameters as they were given.
-/

namespace Contestant
namespace Url

/-- A URI with an authority, cut at the marks that separate its components. -/
structure Components where
  scheme : List Char
  authority : List Char
  path : List Char
  query : Option (List Char)
  fragment : Option (List Char)
  deriving DecidableEq

/-- The fragment is cut off first, then the query; the authority ends where the path begins. -/
def components? (uri : List Char) : Option Components :=
  let (rest, fragment) := Text.cut '#' uri
  let (rest, query) := Text.cut '?' rest
  match Text.cut ':' rest with
  | (scheme, some ('/' :: '/' :: rest)) =>
    some
      { scheme
        authority := rest.takeWhile (· ≠ '/')
        path := rest.dropWhile (· ≠ '/')
        query, fragment }
  | _ => none

theorem not_mem_path {mark : Char} (h : isPathChar mark = false) (text : List Char) :
    mark ∉ path text :=
  Text.not_mem_of_forall h (forall_mem_path text)

theorem not_mem_of_letters {mark : Char} (h : mark.isAlpha = false) {letters : List Char}
    (hletters : letters.all Char.isAlpha = true) : mark ∉ letters :=
  Text.not_mem_of_forall h (List.all_eq_true.mp hletters)

/-- Whatever text the path is set from, it begins after the authority and ends at the query. -/
theorem components?_path {scheme authority query : List Char}
    (hscheme : scheme.all Char.isAlpha = true) (hauthority : authority.all Char.isAlpha = true)
    (hquery : '#' ∉ query) (text : List Char) :
    components? (scheme ++ "://".toList ++ authority ++ path text ++ '?' :: query) =
      some ⟨scheme, authority, path text, some query, none⟩ := by
  -- No part holds the mark of a later one, so each cut is made where the URI was put together.
  have hfront {mark : Char} (hletter : mark.isAlpha = false) (hseparator : mark ∉ "://".toList)
      (hpath : isPathChar mark = false) :
      mark ∉ scheme ++ "://".toList ++ authority ++ path text := by
    simp only [List.mem_append, not_or]
    exact ⟨⟨⟨not_mem_of_letters hletter hscheme, hseparator⟩,
      not_mem_of_letters hletter hauthority⟩, not_mem_path hpath text⟩
  have hhash : '#' ∉ scheme ++ "://".toList ++ authority ++ path text ++ '?' :: query := by
    rw [List.mem_append, List.mem_cons, not_or, not_or]
    exact ⟨hfront (by decide) (by decide) (by decide), by decide, hquery⟩
  have hquestion : '?' ∉ scheme ++ "://".toList ++ authority ++ path text :=
    hfront (by decide) (by decide) (by decide)
  have hcolon : Text.cut ':' (scheme ++ "://".toList ++ authority ++ path text) =
      (scheme, some ('/' :: '/' :: (authority ++ path text))) := by
    have hcut := Text.cut_append (not_mem_of_letters (by decide : ':'.isAlpha = false) hscheme)
      ('/' :: '/' :: (authority ++ path text))
    rwa [show scheme ++ ':' :: '/' :: '/' :: (authority ++ path text) =
      scheme ++ "://".toList ++ authority ++ path text by simp] at hcut
  have hslash : ∀ c ∈ authority, decide (c ≠ '/') = true := fun c hc =>
    decide_eq_true fun heq =>
      not_mem_of_letters (by decide : '/'.isAlpha = false) hauthority (heq ▸ hc)
  obtain ⟨rest, hrest⟩ := exists_path_eq_cons text
  have htake : (authority ++ path text).takeWhile (· ≠ '/') = authority := by
    rw [List.takeWhile_append_of_pos hslash, hrest, List.takeWhile_cons_of_neg (by decide),
      List.append_nil]
  have hdrop : (authority ++ path text).dropWhile (· ≠ '/') = path text := by
    rw [List.dropWhile_append_of_pos hslash, hrest, List.dropWhile_cons_of_neg (by decide)]
  simp only [components?, Text.cut_of_not_mem hhash, Text.cut_append hquestion, hcolon, htake,
    hdrop]

end Url

namespace OneTime

open Url

theorem components?_provisioningUri (v : Verifier) (secret account issuer : String) :
    components? (provisioningUri v secret account issuer).toList =
      some ⟨"otpauth".toList, "totp".toList, provisioningPath account issuer,
        some (Form.encode (provisioningParameters v secret issuer)), none⟩ := by
  have hquery : '#' ∉ Form.encode (provisioningParameters v secret issuer) :=
    Form.not_mem_encode (by decide) _
  rw [show (provisioningUri v secret account issuer).toList = "otpauth".toList ++ "://".toList ++
    "totp".toList ++ provisioningPath account issuer ++
      '?' :: Form.encode (provisioningParameters v secret issuer) from String.toList_ofList]
  exact components?_path (by decide) (by decide) hquery _

/-- All that stands before the query is made of characters that may stand in a path. -/
theorem exists_front (v : Verifier) (secret account issuer : String) :
    ∃ front, (∀ c ∈ front, isPathChar c = true) ∧ "otpauth://totp/".toList <+: front ∧
      (provisioningUri v secret account issuer).toList =
        front ++ '?' :: Form.encode (provisioningParameters v secret issuer) := by
  refine ⟨"otpauth://totp".toList ++ provisioningPath account issuer, fun c hc => ?_, ?_,
    String.toList_ofList⟩
  · have hconstant : "otpauth://totp".toList.all isPathChar = true := by decide
    rcases List.mem_append.mp hc with hc | hc
    · exact List.all_eq_true.mp hconstant c hc
    · exact forall_mem_path _ c hc
  · obtain ⟨rest, hrest⟩ := exists_path_eq_cons (issuer.toList ++ ':' :: account.toList)
    refine ⟨rest, ?_⟩
    rw [provisioningPath, hrest]
    rfl

/-- Whatever the account is called: the URI is ASCII text, it begins as it should, it has one
question mark and no number sign, and what stands behind the question mark is the same query for
all accounts, which reads back as the parameters. -/
theorem account_cannot_change_parameters (v : Verifier) (secret issuer : String) :
    ∃ query, Form.decode? query =
        some [("secret", secret), ("issuer", issuer), ("digits", toString v.digits),
          ("period", toString v.stepSeconds)] ∧
      ∀ account,
        let uri := (provisioningUri v secret account issuer).toList
        (∀ c ∈ uri, c.toNat < 128) ∧ "otpauth://totp/".toList <+: uri ∧ uri.count '?' = 1 ∧
          '#' ∉ uri ∧ (Text.cut '?' uri).2 = some query := by
  refine ⟨Form.encode (provisioningParameters v secret issuer), Form.decode?_encode _,
    fun account => ?_⟩
  obtain ⟨front, hfront, hprefix, huri⟩ := exists_front v secret account issuer
  have hquestion : '?' ∉ front := Text.not_mem_of_forall (by decide) hfront
  rw [huri]
  refine ⟨?ascii, hprefix.trans (List.prefix_append _ _), ?count, ?hash, ?query⟩
  case ascii =>
    intro c hc
    rcases List.mem_append.mp hc with hc | hc
    · have hpath := isPathChar_iff.mp (hfront c hc)
      omega
    · rcases List.mem_cons.mp hc with rfl | hc
      · decide
      · exact Form.lt_of_mem_encode hc
  case count =>
    rw [List.count_append, List.count_cons_self, List.count_eq_zero.mpr hquestion,
      List.count_eq_zero.mpr (Form.not_mem_encode (by decide) _)]
  case hash =>
    rw [List.mem_append, List.mem_cons, not_or, not_or]
    exact ⟨Text.not_mem_of_forall (by decide) hfront, by decide, Form.not_mem_encode (by decide) _⟩
  case query => rw [Text.cut_append hquestion]

end OneTime
end Contestant
