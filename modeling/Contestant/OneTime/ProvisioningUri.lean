import Contestant.OneTime.Verifier
import Contestant.Url.Form
import Contestant.Url.Path

/-!
The URI from which an authenticator learns a key: the account in the path, the parameters in the
query.
-/

namespace Contestant
namespace OneTime

/-- The path: the issuer and the account, with a colon between them. -/
def provisioningPath (account issuer : String) : List Char :=
  Url.path (issuer.toList ++ ':' :: account.toList)

def provisioningParameters (v : Verifier) (secret issuer : String) : List (String × String) :=
  [("secret", secret), ("issuer", issuer), ("digits", toString v.digits),
    ("period", toString v.stepSeconds)]

def provisioningUri (v : Verifier) (secret account issuer : String) : String :=
  String.ofList <|
    "otpauth://totp".toList ++ provisioningPath account issuer ++
      '?' :: Form.encode (provisioningParameters v secret issuer)

end OneTime
end Contestant
