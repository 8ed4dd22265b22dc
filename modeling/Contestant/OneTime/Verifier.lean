import Contestant.OneTime.Code
import Contestant.OneTime.Key
import Contestant.Time.Instant

/-!
Verifying time-based one-time codes.

Time is counted in steps; a step's count is its timecode and serves as the counter of its code.  A
candidate is compared with the codes of the timecodes around now, oldest first, except that a
timecode at or below the last accepted one is never tried again.
-/

namespace Contestant
namespace OneTime

/-- A count of time steps since 1970, in 64 bits. -/
abbrev Timecode := Int64

/-- The widest tolerance that is scanned, in steps on either side of now. -/
def maxTolerance : Nat := 10

/-- A configured tolerance, if it is not too wide. -/
def checkTolerance (steps : Nat) : Except InputFault Nat :=
  if maxTolerance < steps then .error (.tolerance steps) else .ok steps

def maxStep : Nat := Nat.pow 2 63 - 1

/-- The duration of a step and the length of a code. -/
structure Verifier where
  stepSeconds : Nat
  digits : Nat
  step_pos : 0 < stepSeconds
  step_le : stepSeconds ≤ maxStep
  six_le_digits : 6 ≤ digits
  digits_le : digits ≤ 8

/-- What verification knows about one credential. -/
structure State where
  /-- The stored key, which every verification checks. -/
  secret : Option String
  lastAccepted : Timecode
  tolerance : Nat
  deriving DecidableEq

inductive Rejection
  | malformedCode
  | malformedSecret
  | noMatch
  deriving DecidableEq

inductive Verdict
  | accepted (timecode : Timecode) (next : State)
  | rejected (reason : Rejection)
  deriving DecidableEq

/-- Whether the candidate was accepted, and the state from then on: a rejection changes nothing. -/
def Verdict.settle (verdict : Verdict) (previous : State) : Bool × State :=
  match verdict with
  | accepted _ next => (true, next)
  | rejected _ => (false, previous)

namespace Verifier

/-- The verifier with the nearest admissible step and length. -/
def clamped (stepSeconds digits : Nat) : Verifier where
  stepSeconds := max 1 (min stepSeconds maxStep)
  digits := max 6 (min digits 8)
  step_pos := by omega
  step_le := by simp only [maxStep, Nat.pow_eq]; omega
  six_le_digits := by omega
  digits_le := by omega

def standard : Verifier := clamped 30 6

/-- The verifier with this step, if the step is admissible. -/
def checked (stepSeconds digits : Nat) : Except InputFault Verifier :=
  if stepSeconds = 0 ∨ maxStep < stepSeconds then .error (.stepSeconds stepSeconds)
  else .ok (clamped stepSeconds digits)

/-- The step in which an instant lies; steps before 1970 count downwards from `-1`. -/
def timecode (v : Verifier) (t : Instant) : Timecode := .ofInt (t.seconds / v.stepSeconds)

/-- A candidate of the right length and of digits only. -/
def isWellFormed (v : Verifier) (candidate : String) : Bool :=
  let text := candidate.toList
  Utf8.size text = v.digits && text.all Char.isDigit

/-- A number held to the range of timecodes. -/
def saturated (n : Int) : Int := (Int64.ofIntClamp n).toInt

/-- The timecodes to try at `current`, ascending. -/
def window (state : State) (current : Timecode) : List Timecode :=
  let tolerance : Int := min state.tolerance maxTolerance
  let next := saturated (state.lastAccepted.toInt + 1)
  let earliest := saturated (current.toInt - tolerance)
  let lower := max (max next earliest) 0
  let upper := saturated (current.toInt + tolerance)
  (List.range (upper - lower + 1).toNat).map fun (i : Nat) => .ofInt (lower + (i : Int))

/-- The code that an authenticator shows in a step, from the bytes of its key. -/
def codeAt (v : Verifier) (key : List UInt8) (timecode : Timecode) : String :=
  code key timecode.toInt.toNat v.digits

/-- Compares a candidate with the codes of the window.  The format of the candidate is checked
before the key, and the key before anything is computed. -/
def verify (v : Verifier) (state : State) (candidate : String) (now : Instant) : Verdict :=
  if !v.isWellFormed candidate then .rejected .malformedCode
  else
    match state.secret.map decodeKey with
    | some (.ok key) =>
      match (window state (v.timecode now)).find? (fun t => v.codeAt key t = candidate) with
      | some timecode => .accepted timecode { state with lastAccepted := timecode }
      | none => .rejected .noMatch
    | _ => .rejected .malformedSecret

/-- The code of a step for a stored key. -/
def generate (v : Verifier) (secret : String) (timecode : Timecode) : Except InputFault String :=
  match decodeKey secret with
  | .error fault => .error fault
  | .ok key => if timecode < 0 then .error .malformedCode else .ok (v.codeAt key timecode)

end Verifier
end OneTime
end Contestant
