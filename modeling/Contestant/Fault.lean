import Contestant.Json.Value
import Contestant.Text.Quoted

/-!
What can go wrong, in three layers.

An `InputFault` is found by scoring and one-time passwords in their inputs before anything is
computed.  A `ServiceFault` is what an operation reports to its caller: a kind, which decides the
status of a response, and a text.  A `Breakdown` is not reported: the operation ends there, and its
caller gets no result of either kind.
-/

namespace Contestant

/-! ## Faulty inputs -/

/-- An input that is rejected before any computation. -/
inductive InputFault
  | emptyTable
  | tableEntry (index : Nat) (value : Binary64)
  | stepRatio (ratio : Binary64)
  | score (problem : Int) (value : Binary64)
  | malformedCode
  | malformedSecret
  | malformedScratchCodes
  | stepSeconds (seconds : Nat)
  | tolerance (steps : Nat)
  deriving DecidableEq

namespace InputFault

def message : InputFault → String
  | emptyTable => "decay table is empty"
  | tableEntry index value =>
    "decay table entry " ++ toString index ++ " is not positive: " ++ Layout.plain.write value
  | stepRatio ratio => "step ratio must be in (0, 1], got " ++ Layout.plain.write ratio
  | score problem value =>
    "invalid best score " ++ Layout.plain.write value ++ " for problem " ++ toString problem
  | malformedCode => "malformed one-time code"
  | malformedSecret => "malformed shared secret"
  | malformedScratchCodes => "malformed scratch codes"
  | stepSeconds seconds =>
    "TOTP step must be between 1 and 9223372036854775807 seconds, got " ++ toString seconds
  | tolerance steps =>
    "TOTP tolerance of " ++ toString steps ++ " steps exceeds the allowed maximum"

end InputFault

/-! ## Failed operations -/

/-- A failed operation, with the text it carries. -/
inductive ServiceFault
  | internal (text : String)
  | badRequest (text : String)
  | unauthorized (text : String)
  | notFound (text : String)
  | conflict (text : String)
  deriving DecidableEq

namespace ServiceFault

def text : ServiceFault → String
  | internal text => text
  | badRequest text => text
  | unauthorized text => text
  | notFound text => text
  | conflict text => text

def kindName : ServiceFault → String
  | internal _ => "InternalServerError"
  | badRequest _ => "BadRequest"
  | unauthorized _ => "AuthError"
  | notFound _ => "NotFound"
  | conflict _ => "Conflict"

/-- The kind with the quoted text, as log lines show a failure. -/
def display (fault : ServiceFault) : String :=
  fault.kindName ++ "(" ++ Text.quoted fault.text ++ ")"

def status : ServiceFault → Nat
  | internal _ => 500
  | badRequest _ => 400
  | unauthorized _ => 401
  | notFound _ => 404
  | conflict _ => 409

/-- What a client is told: the text, except that an internal failure shows nothing of itself. -/
def publicText : ServiceFault → String
  | internal _ => "Internal Server Error"
  | fault => fault.text

/-- The body of a response that reports this failure. -/
def body (fault : ServiceFault) : String :=
  (JsonValue.object [("error", .text fault.publicText)]).toText

end ServiceFault

/-- A faulty input that reaches an operation comes from stored data or configuration, never from
the client, so it is an internal failure. -/
def InputFault.toService (fault : InputFault) : ServiceFault := .internal fault.message

/-! ## Operations that break off -/

/-- What an operation cannot go on from. -/
inductive Breakdown
  /-- A sum that does not fit into its 64 bits. -/
  | sumOverflow
  deriving DecidableEq

def Breakdown.message : Breakdown → String
  | sumOverflow => "attempt to add with overflow"

end Contestant
