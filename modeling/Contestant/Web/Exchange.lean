import Contestant.Database.Query
import Contestant.Settings.Settings
import Contestant.Token.Signed
import Contestant.Web.Endpoint
import Contestant.Web.MediaType

/-!
From a request to its first query or to a refusal, and on to the response.

A request is refused at the first check that it fails: path, token, method, type and shape of the
body, the rules of the form, and last the account that the token names.  What passes them all
begins with a query.  The response answers the first query of a database that is closed; the
headers for other origins are added to every response.
-/

namespace Contestant
namespace Web

/-! ## Refusals -/

inductive Refusal
  | notFound
  | wrongMethod
  | unauthorized
  | mediaType
  | tooLarge
  | unreadable (fault : JsonFault)
  | failed (fault : ServiceFault)
  deriving DecidableEq

def Refusal.response : Refusal → Response
  | notFound => .empty 404
  | wrongMethod => .empty 405
  | unauthorized => .empty 401
  | mediaType => .plain 415 "a JSON body was expected"
  | tooLarge => .plain 413 "the body is too large"
  | unreadable .malformed => .plain 400 "the body is not JSON"
  | unreadable .mismatched => .plain 422 "the body has another shape than expected"
  | failed fault => .ofFault fault

/-! ## Checks -/

def authenticate (secret : String) (now : Nat) (request : Request) : Except Refusal Claims :=
  match request.header? "authorization" with
  | none => .error .unauthorized
  | some value =>
    match "Bearer ".toList.isPrefixOf? value.toList with
    | none => .error .unauthorized
    | some token =>
      match Token.open? secret token now with
      | none => .error .unauthorized
      | some claims => .ok claims

def bodyLimit : Nat := 2 * 1024 * 1024

/-- Reads a form from the body and checks it against its rules. -/
def readForm (read : List UInt8 → Except JsonFault α) (form : α → Form) (request : Request) :
    Except Refusal α :=
  if !(request.header? "content-type").any MediaType.isJson then .error .mediaType
  else if bodyLimit < request.body.utf8ByteSize then .error .tooLarge
  else
    match read (Utf8.encode request.body.toList) with
    | .error fault => .error (.unreadable fault)
    | .ok value =>
      match (form value).violations with
      | [] => .ok value
      | violations => .error (.failed (.badRequest (Violation.report violations)))

def owner (claims : Claims) : Except Refusal Int := claims.owner.mapError .failed

/-! ## First queries -/

/-- The first query of an action. -/
def ProfileAction.query (action : ProfileAction) (claims : Claims) (request : Request) :
    Except Refusal Query :=
  match action with
  | .show => (owner claims).map .profile
  | .recalculate => (owner claims).map .submissions
  | .beginTotp => (owner claims).map .username
  | .confirmTotp => do
    let _ ← readForm Confirmation.read Confirmation.form request
    (owner claims).map .credential
  | .renewScratchCodes => (owner claims).map .credential

def checkMethod (endpoint : Endpoint) (request : Request) : Except Refusal Unit :=
  if endpoint.admits request.method then .ok () else .error .wrongMethod

/-- The first query of a request, or its refusal.  Where a token is needed it is looked at before
the method. -/
def query (secret : String) (now : Nat) (request : Request) : Except Refusal Query :=
  match Endpoint.ofPath? request.path with
  | none => .error .notFound
  | some .register => do
    checkMethod .register request
    (readForm Registration.read Registration.form request).map .addMember
  | some .login => do
    checkMethod .login request
    let login ← readForm Login.read Login.form request
    return .findMember login.username
  | some (.profile action) => do
    let claims ← authenticate secret now request
    checkMethod (.profile action) request
    action.query claims request

/-! ## Other origins -/

/-- The origins whose pages may use the service. -/
def origins : List String := ["http://localhost:3000", "http://127.0.0.1:3000"]

/-- The answer to a browser that asks what pages of other origins may do. -/
def preflight : Response :=
  ⟨200, [("access-control-allow-methods", "GET,POST"),
    ("access-control-allow-headers", "authorization,content-type")], ""⟩

def withOrigin (request : Request) (response : Response) : Response :=
  match request.header? "origin" with
  | none => response
  | some origin =>
    if origins.contains origin then
      response.withHeader "access-control-allow-origin" origin
    else response

/-! ## Responses -/

/-- Where the method does not fit the path, the response names those that do. -/
def withAllowed (request : Request) (response : Response) : Response :=
  match Endpoint.ofPath? request.path with
  | none => response
  | some endpoint =>
    if endpoint.admits request.method then response
    else response.withHeader "allow" endpoint.allowed

/-- A response to a request for headers alone has no body. -/
def withoutBody (request : Request) (response : Response) : Response :=
  if request.method = .head then { response with body := "" } else response

/-- The response of a service whose database is closed. -/
def respond (service : Service) (now : Nat) (request : Request) : Response :=
  let response :=
    if request.method = .options then preflight
    else
      match query service.settings.tokenSecret now request with
      | .ok query => .ofFault query.failure
      | .error refusal => refusal.response
  withoutBody request (withAllowed request (withOrigin request response))

end Web
end Contestant
