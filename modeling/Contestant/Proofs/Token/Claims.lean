import Contestant.Proofs.Json.Records
import Contestant.Proofs.Number.Decimal
import Contestant.Token.Claims

/-!
The claims of a token survive their payload.

Two readers look at it: one for the claims themselves, and one for the registered claims, which
knows nothing of roles and takes subject and expiry for any values.
-/

namespace Contestant
namespace Claims

open JsonSource (exists_scans_text naturalLiteral scans_ofNat)
open Record (Adds Gathers)

/-- The payload of a token. -/
def payload (c : Claims) : List UInt8 := Utf8.encode c.toJson.write

/-- The record of a payload. -/
def record (c : Claims) : Record :=
  [("sub", .text c.subject), ("role", .text c.role),
    ("exp", .source (.number (naturalLiteral c.expires)))]

theorem ofBytes_payload (c : Claims) :
    Record.ofBytes [⟨"sub", .text⟩, ⟨"role", .text⟩, ⟨"exp", .value⟩] c.payload =
      .ok c.record := by
  have hgathers : Gathers [⟨"sub", .text⟩, ⟨"role", .text⟩, ⟨"exp", .value⟩] []
      [("sub", .text c.subject), ("role", .text c.role), ("exp", .ofNat c.expires)] c.record :=
    .cons (.field rfl rfl (.text c.subject)) <|
      .cons (.field rfl rfl (.text c.role)) <|
        .cons (.field rfl rfl (.value (scans_ofNat c.expires) nofun)) (.nil _)
  exact Record.ofBytes_of_gathers (List.cons_ne_nil _ _) hgathers rfl

theorem read_payload {c : Claims} (h : c.expires < UInt64.size) : read c.payload = some c := by
  have hsource : c.record.source? "exp" = some (.number (naturalLiteral c.expires)) := rfl
  have hexpires : (JsonSource.number (naturalLiteral c.expires)).asNatural? = some c.expires :=
    JsonSource.natural?_naturalLiteral c.expires
  have hsubject : c.record.text? "sub" = some c.subject := rfl
  have hrole : c.record.text? "role" = some c.role := rfl
  rw [read, ofBytes_payload]
  simp only [Except.toOption, Option.bind_eq_bind, Option.bind_some, hsource, hexpires, h,
    if_true, hsubject, hrole, Option.pure_def]

theorem admitsRegistered_payload (c : Claims) : admitsRegistered c.payload = true := by
  obtain ⟨units, -, hscans⟩ := exists_scans_text c.subject
  obtain ⟨role, -, hrole⟩ := exists_scans_text c.role
  have hgathers : Gathers (["exp", "nbf", "sub", "iss", "aud"].map (⟨·, .value⟩)) []
      [("sub", .text c.subject), ("role", .text c.role), ("exp", .ofNat c.expires)]
      [("sub", .source (.text units)), ("exp", .source (.number (naturalLiteral c.expires)))] :=
    .cons (.field rfl rfl (.value hscans nofun)) <|
      .cons (.other (by decide) hrole) <|
        .cons (.field rfl rfl (.value (scans_ofNat c.expires) nofun)) (.nil _)
  have hrecord := Record.ofBytes_of_gathers (List.cons_ne_nil _ _) hgathers rfl
  rw [admitsRegistered, payload, toJson, hrecord]
  rfl

end Claims
end Contestant
