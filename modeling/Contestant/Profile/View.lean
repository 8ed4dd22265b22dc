import Contestant.Json.Value
import Contestant.Scoring.Scorer

/-!
What clients are shown of an account, as JSON with its fields in a fixed order.
-/

namespace Contestant

def Snapshot.toJson (s : Snapshot) : JsonValue :=
  .object [("total_points", .ofDouble s.totalPoints), ("problems_solved", .ofNat s.solved.toNat),
    ("performance_points", .ofDouble s.performancePoints)]

structure Member where
  id : Int
  username : String
  passwordHash : String
  role : String
  twoFactor : Bool
  createdAt : Option Instant

/-- The password hash is not shown to anybody. -/
def Member.toJson (m : Member) : JsonValue :=
  .object [("id", .ofInt m.id), ("username", .text m.username), ("role", .text m.role),
    ("is_totp_enabled", .bool m.twoFactor), ("created_at", .ofInstant? m.createdAt)]

/-- An account with its stored points. -/
structure Profile where
  id : Int
  username : String
  role : String
  points : Binary64
  performancePoints : Binary64
  problemCount : Int
  twoFactor : Bool
  createdAt : Option Instant

def Profile.toJson (p : Profile) : JsonValue :=
  .object [("id", .ofInt p.id), ("username", .text p.username), ("role", .text p.role),
    ("points", .ofDouble p.points), ("performance_points", .ofDouble p.performancePoints),
    ("problem_count", .ofInt p.problemCount), ("is_totp_enabled", .bool p.twoFactor),
    ("created_at", .ofInstant? p.createdAt)]

end Contestant
