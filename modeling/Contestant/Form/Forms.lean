import Contestant.Form.LengthRule
import Contestant.Json.Record

/-!
The three forms that clients send: registration, login and the confirmation of a two-factor key.

Each is read from a JSON document and then checked against the length rules of its fields; reading
does not look at lengths.
-/

namespace Contestant

/-- A form that was read, as the rules see it: its fields by name, absent ones without a value. -/
structure Form where
  rules : List LengthRule
  values : List (String × Option String)
  deriving DecidableEq

def Form.violations (form : Form) : List Violation :=
  form.rules.flatMap fun rule => rule.check ((form.values.lookup rule.field).getD none)

/-! ## Registration -/

structure Registration where
  username : String
  password : String
  deriving DecidableEq

namespace Registration

def rules : List LengthRule :=
  [⟨"username", some 3, 50, some "Username length must be between 3 and 50 characters."⟩,
    ⟨"password", some 4, 128, some "Password length must be between 4 and 128 characters."⟩]

def read (body : List UInt8) : Except JsonFault Registration := do
  let record ← Record.ofBytes [⟨"username", .text⟩, ⟨"password", .text⟩] body
  match record.text? "username", record.text? "password" with
  | some username, some password => .ok { username, password }
  | _, _ => .error .mismatched

def form (r : Registration) : Form :=
  ⟨rules, [("username", some r.username), ("password", some r.password)]⟩

end Registration

/-! ## Login -/

/-- Name and password, with one of two second factors where the account asks for one. -/
structure Login where
  username : String
  password : String
  totpCode : Option String
  scratchCode : Option String
  deriving DecidableEq

namespace Login

def rules : List LengthRule :=
  [⟨"username", some 1, 50, none⟩, ⟨"password", some 1, 128, none⟩,
    ⟨"totp_code", none, 16, none⟩, ⟨"scratch_code", none, 32, none⟩]

def read (body : List UInt8) : Except JsonFault Login := do
  let record ← Record.ofBytes
    [⟨"username", .text⟩, ⟨"password", .text⟩, ⟨"totp_code", .optionalText⟩,
      ⟨"scratch_code", .optionalText⟩] body
  match record.text? "username", record.text? "password" with
  | some username, some password =>
    .ok
      { username, password
        totpCode := record.text? "totp_code"
        scratchCode := record.text? "scratch_code" }
  | _, _ => .error .mismatched

def form (l : Login) : Form :=
  ⟨rules, [("username", some l.username), ("password", some l.password),
    ("totp_code", l.totpCode), ("scratch_code", l.scratchCode)]⟩

end Login

/-! ## Confirmation -/

/-- The first code of a new two-factor key. -/
structure Confirmation where
  totpCode : String
  deriving DecidableEq

namespace Confirmation

def rules : List LengthRule := [⟨"totp_code", some 1, 16, none⟩]

def read (body : List UInt8) : Except JsonFault Confirmation := do
  let record ← Record.ofBytes [⟨"totp_code", .text⟩] body
  match record.text? "totp_code" with
  | some totpCode => .ok { totpCode }
  | none => .error .mismatched

def form (c : Confirmation) : Form := ⟨rules, [("totp_code", some c.totpCode)]⟩

end Confirmation
end Contestant
