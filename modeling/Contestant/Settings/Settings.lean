import Contestant.Number.Reading
import Contestant.OneTime.Verifier
import Contestant.Scoring.Scorer

/-!
The settings of the service, read from environment variables, and what is built from them.
-/

namespace Contestant

structure Settings where
  databaseUrl : String
  tokenSecret : String
  tokenLifetime : Nat
  logFilter : String
  decayRatio : Binary64
  /-- How many problems count for performance points. -/
  decayEntries : Nat
  bonusMax : Binary64
  bonusBase : Binary64
  stepSeconds : Nat
  /-- The accepted distance from the current step, in steps. -/
  toleranceSteps : Nat
  digits : Nat
  scratchCodes : Nat
  deriving DecidableEq

namespace Settings

/-- The settings that tests and tools start from. -/
def standard (databaseUrl tokenSecret : String) : Settings where
  databaseUrl
  tokenSecret
  tokenLifetime := 600
  logFilter := "error"
  decayRatio := .ofDecimal false 95 (-2)
  decayEntries := 100
  bonusMax := .ofDecimal false 300 0
  bonusBase := .ofDecimal false 997 (-3)
  stepSeconds := 30
  toleranceSteps := 1
  digits := 6
  scratchCodes := 5

/-! ## Environment -/

/-- A variable without which there are no settings. -/
inductive Missing
  | databaseUrl
  | tokenSecret
  deriving DecidableEq

def Missing.variable : Missing → String
  | databaseUrl => "DATABASE_URL"
  | tokenSecret => "JWT_SECRET"

def Missing.message (m : Missing) : String := m.variable ++ " must be set: NotPresent"

/-- The value of a variable, or the default where it is not set or cannot be read. -/
def valueOr (environment : String → Option String) (name : String)
    (read : String → Option α) (default : α) : α :=
  ((environment name).bind read).getD default

/-- The settings of an environment.  The database is looked up before the secret. -/
def ofEnvironment (environment : String → Option String) : Except Missing Settings :=
  let natural (name : String) (default : Nat) : Nat :=
    valueOr environment name (readNatural (UInt64.size - 1)) default
  let double (name : String) (default : Binary64) : Binary64 :=
    valueOr environment name Binary64.ofText? default
  match environment "DATABASE_URL", environment "JWT_SECRET" with
  | none, _ => .error .databaseUrl
  | some _, none => .error .tokenSecret
  | some databaseUrl, some tokenSecret =>
    let base := standard databaseUrl tokenSecret
    .ok
      { base with
        tokenLifetime := natural "JWT_EXPIRATION" 86400
        logFilter := (environment "RUST_LOG").getD "info"
        decayRatio := double "PP_STEP" base.decayRatio
        decayEntries := natural "PP_ENTRIES" base.decayEntries
        bonusMax := double "PP_BONUS_MAX" base.bonusMax
        bonusBase := double "PP_BONUS_BASE" base.bonusBase
        stepSeconds := natural "TOTP_STEP_SECONDS" base.stepSeconds
        toleranceSteps := natural "TOTP_TOLERANCE_STEPS" base.toleranceSteps
        digits := valueOr environment "TOTP_DIGITS" (readNatural (UInt32.size - 1)) base.digits
        scratchCodes := natural "SCRATCH_CODES_COUNT" base.scratchCodes }

/-! ## What settings build -/

def scorer (s : Settings) : Except InputFault Scorer :=
  (DecayTable.geometric s.decayRatio s.decayEntries).map fun table =>
    ⟨table, .saturating s.bonusMax s.bonusBase⟩

/-- The verifier.  Too wide a tolerance is found before an inadmissible step. -/
def verifier (s : Settings) : Except InputFault OneTime.Verifier := do
  let _ ← OneTime.checkTolerance s.toleranceSteps
  OneTime.Verifier.checked s.stepSeconds s.digits

end Settings

/-- Settings with the scorer and the verifier built from them. -/
structure Service where
  settings : Settings
  scorer : Scorer
  verifier : OneTime.Verifier

/-- Builds both, the scorer first. -/
def Service.ofSettings (settings : Settings) : Except InputFault Service := do
  let scorer ← settings.scorer
  let verifier ← settings.verifier
  return { settings, scorer, verifier }

end Contestant
