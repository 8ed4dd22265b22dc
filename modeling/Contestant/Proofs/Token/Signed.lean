import Contestant.Proofs.Text.Radix
import Contestant.Proofs.Token.Claims
import Contestant.Token.Signed

/-!
Signed tokens are opened by the secret that they were signed with.

What is signed comes back for every subject, role and secret, until a leeway after its expiry.
Only the expiry may stand in the way of issuing: `token_issued_iff_expiry_fits` says that an account
gets its token exactly if the sum of clock and lifetime fits into 64 bits, and that issuing breaks
off otherwise.
-/

namespace Contestant

theorem Alphabet.base64Url_faithful : Alphabet.base64Url.Faithful where
  width_pos := by decide
  width_le := by decide
  value_symbol := by decide

theorem TokenHeader.admits_standard : admits (Utf8.encode standard.write) = true := by
  decide +kernel

namespace Token

open Alphabet (base64Url_faithful)

/-! ## Parts -/

theorem decodePart_encodePart (bytes : List UInt8) :
    decodePart (encodePart bytes) = some bytes :=
  base64Url_faithful.decode?_encode bytes

theorem point_notMem_encodePart (bytes : List UInt8) : '.' ∉ encodePart bytes := by
  intro h
  obtain ⟨n, hn, hsymbol⟩ := base64Url_faithful.exists_symbol_of_mem_encode h
  have hsymbols : ∀ n < 64, Alphabet.base64Url.symbol n ≠ '.' := by decide
  exact hsymbols n hn hsymbol

/-- The first two parts of a token. -/
def message (claims : Claims) : List Char :=
  encodePart (Utf8.encode TokenHeader.standard.write) ++ '.' :: encodePart claims.payload

theorem splitLast_sign (secret : String) (claims : Claims) :
    Text.splitLast '.' (sign secret claims).toList =
      some (message claims, signature secret (message claims)) := by
  have hsign : (sign secret claims).toList =
      message claims ++ '.' :: signature secret (message claims) := String.toList_ofList
  rw [hsign]
  exact Text.splitLast_append (point_notMem_encodePart _)

theorem splitLast_message (claims : Claims) :
    Text.splitLast '.' (message claims) =
      some (encodePart (Utf8.encode TokenHeader.standard.write), encodePart claims.payload) :=
  Text.splitLast_append (point_notMem_encodePart _)

/-! ## Opening -/

/-- The claims that a token carries, whoever signed it and however old it is. -/
def carried? (token : String) : Option Claims := do
  let (message, _) ← Text.splitLast '.' token.toList
  let (_, payload) ← Text.splitLast '.' message
  Claims.read (← decodePart payload)

theorem carried?_sign (secret : String) {claims : Claims} (h : claims.expires < UInt64.size) :
    carried? (sign secret claims) = some claims := by
  simp only [carried?, splitLast_sign, splitLast_message, decodePart_encodePart,
    Option.bind_eq_bind, Option.bind_some, Claims.read_payload h]

/-- A signed token is opened until a leeway after its expiry. -/
theorem verify_sign (secret : String) {claims : Claims} (h : claims.expires < UInt64.size)
    (moment : Nat) :
    verify secret (sign secret claims) moment =
      if moment ≤ claims.expires + Claims.leeway then .ok claims
      else .error (.unauthorized "Invalid token") := by
  have hopen : open? secret (sign secret claims).toList moment =
      if !claims.isExpired moment then some claims else none := by
    simp only [open?, splitLast_sign, splitLast_message, decodePart_encodePart,
      TokenHeader.admits_standard, Option.bind_eq_bind, Option.bind_some, Claims.read_payload h,
      Claims.admitsRegistered_payload, Bool.true_and, decide_true, if_true]
  rw [verify, hopen, Claims.isExpired]
  by_cases hmoment : moment ≤ claims.expires + Claims.leeway
  · rw [decide_eq_false (Nat.not_lt.mpr hmoment), if_pos hmoment]
    rfl
  · rw [decide_eq_true (Nat.not_le.mp hmoment), if_neg hmoment]
    rfl

end Token

/-! ## Issuing -/

namespace Claims

variable {id : Int} {role : String} {lifetime now : Nat}

theorem ofUser_eq_ok_iff {claims : Claims} :
    ofUser id role lifetime now = .ok claims ↔
      now + lifetime < UInt64.size ∧ claims = ⟨toString id, role, now + lifetime⟩ := by
  rw [ofUser]
  by_cases hfits : now + lifetime < UInt64.size
  · rw [if_pos hfits, Except.ok.injEq]
    exact ⟨fun h => ⟨hfits, h.symm⟩, fun h => h.2.symm⟩
  · rw [if_neg hfits]
    exact ⟨nofun, fun h => absurd h.1 hfits⟩

theorem ofUser_eq_sumOverflow_iff :
    ofUser id role lifetime now = .error .sumOverflow ↔ UInt64.size ≤ now + lifetime := by
  rw [ofUser]
  by_cases hfits : now + lifetime < UInt64.size
  · rw [if_pos hfits]
    exact ⟨nofun, fun h => absurd hfits (Nat.not_lt.mpr h)⟩
  · rw [if_neg hfits]
    exact ⟨fun _ => Nat.not_lt.mp hfits, fun _ => rfl⟩

/-- The subject is the decimal text of the account, which reads back over the whole range. -/
theorem ofUser_spec {id : Int64} {claims : Claims}
    (h : ofUser id.toInt role lifetime now = .ok claims) :
    claims.owner = .ok id.toInt ∧ claims.role = role ∧ claims.expires = now + lifetime := by
  obtain ⟨-, rfl⟩ := ofUser_eq_ok_iff.mp h
  have huser : (Claims.mk (toString id.toInt) role (now + lifetime)).userId = some id.toInt :=
    readInteger_toString (Int64.minValue_le_toInt id) (Int64.toInt_le id)
  rw [owner, huser]
  exact ⟨rfl, rfl, rfl⟩

end Claims

namespace Token

theorem issue_natCast (secret : String) (id : Int) (role : String) (lifetime now : Nat) :
    issue secret id role lifetime now =
      (Claims.ofUser id role lifetime now).map fun claims => .ok (sign secret claims) := by
  rw [issue, if_neg (Int.not_lt.mpr (Int.natCast_nonneg now)), Int.toNat_natCast]

theorem issue_eq_ok_iff {secret role token : String} {id : Int} {lifetime now : Nat} :
    issue secret id role lifetime now = .ok (.ok token) ↔
      ∃ claims, Claims.ofUser id role lifetime now = .ok claims ∧ token = sign secret claims := by
  rw [issue_natCast]
  cases Claims.ofUser id role lifetime now with
  | error breakdown => exact ⟨nofun, nofun⟩
  | ok claims =>
    rw [Except.map, Except.ok.injEq, Except.ok.injEq]
    constructor
    · intro h
      exact ⟨claims, rfl, h.symm⟩
    · rintro ⟨_, h, rfl⟩
      cases h
      rfl

theorem issue_eq_error_iff {secret role : String} {id : Int} {lifetime now : Nat}
    {breakdown : Breakdown} :
    issue secret id role lifetime now = .error breakdown ↔
      Claims.ofUser id role lifetime now = .error breakdown := by
  rw [issue_natCast]
  cases Claims.ofUser id role lifetime now with
  | error first => rw [Except.map, Except.error.injEq, Except.error.injEq]
  | ok claims => exact ⟨nofun, nofun⟩

/-- From the start of Unix time on an account gets a token exactly if the end of its lifetime can
be counted in 64 bits.  The token carries account, role and that end, and it is opened at the moment
of issue and at every other until a leeway after its end.  Otherwise issuing breaks off. -/
theorem token_issued_iff_expiry_fits (id : Int64) (role secret : String)
    (lifetime now : UInt64) :
    ((∃ token claims,
        issue secret id.toInt role lifetime.toNat now.toNat = .ok (.ok token) ∧
        carried? token = some claims ∧ claims.owner = .ok id.toInt ∧ claims.role = role ∧
        claims.expires = now.toNat + lifetime.toNat ∧
        verify secret token now.toNat = .ok claims ∧
        ∀ moment, verify secret token moment =
          if moment ≤ now.toNat + lifetime.toNat + Claims.leeway then .ok claims
          else .error (.unauthorized "Invalid token")) ↔
      now.toNat + lifetime.toNat < UInt64.size) ∧
    (issue secret id.toInt role lifetime.toNat now.toNat = .error .sumOverflow ↔
      UInt64.size ≤ now.toNat + lifetime.toNat) := by
  refine ⟨⟨?_, ?_⟩, issue_eq_error_iff.trans Claims.ofUser_eq_sumOverflow_iff⟩
  · rintro ⟨token, _, hissue, -⟩
    obtain ⟨claims, huser, -⟩ := issue_eq_ok_iff.mp hissue
    exact (Claims.ofUser_eq_ok_iff.mp huser).1
  · intro hfits
    obtain ⟨claims, hclaims⟩ :
        ∃ claims, Claims.ofUser id.toInt role lifetime.toNat now.toNat = .ok claims :=
      ⟨_, Claims.ofUser_eq_ok_iff.mpr ⟨hfits, rfl⟩⟩
    obtain ⟨howner, hrole, hexpires⟩ := Claims.ofUser_spec hclaims
    have hlt : claims.expires < UInt64.size := by
      rw [hexpires]
      exact hfits
    have hverify := verify_sign secret hlt
    rw [hexpires] at hverify
    have hnow : now.toNat ≤ now.toNat + lifetime.toNat + Claims.leeway := by omega
    exact ⟨sign secret claims, claims, issue_eq_ok_iff.mpr ⟨claims, hclaims, rfl⟩,
      carried?_sign secret hlt, howner, hrole, hexpires,
      (hverify now.toNat).trans (if_pos hnow), hverify⟩

/-- A lifetime of 64 bits that falls short of the bound by a million seconds, which is less than the
clock shows. -/
theorem issuing_may_break_off :
    18446744073708551616 < UInt64.size ∧
    issue "s" 1 "user" 18446744073708551616 1760000000 = .error .sumOverflow :=
  ⟨by decide, rfl⟩

end Token
end Contestant
