import Contestant.Web.Message

/-!
The endpoints of the service and the methods they admit.
-/

namespace Contestant
namespace Web

/-- What the owner of a profile may ask for. -/
inductive ProfileAction
  | show
  | recalculate
  | beginTotp
  | confirmTotp
  | renewScratchCodes
  deriving DecidableEq

inductive Endpoint
  | register
  | login
  | profile (action : ProfileAction)
  deriving DecidableEq

namespace Endpoint

/-- The endpoint at a path, which has to be spelled exactly. -/
def ofPath? : String → Option Endpoint
  | "/api/auth/register" => some register
  | "/api/auth/login" => some login
  | "/api/profile/me" => some (profile .show)
  | "/api/profile/points" => some (profile .recalculate)
  | "/api/profile/totp" => some (profile .beginTotp)
  | "/api/profile/totp/confirm" => some (profile .confirmTotp)
  | "/api/profile/scratch-codes" => some (profile .renewScratchCodes)
  | _ => none

/-- What is read may also be asked for without its body; everything else is posted. -/
def admits (e : Endpoint) (method : Method) : Bool :=
  match e with
  | profile .show => method = .get || method = .head
  | _ => method = .post

/-- The admitted methods, as clients are told. -/
def allowed : Endpoint → String
  | profile .show => "GET,HEAD"
  | _ => "POST"

end Endpoint
end Web
end Contestant
