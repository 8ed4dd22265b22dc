import Contestant.Json.Record
import Contestant.Json.Value
import Contestant.Token.PublicKey

/-!
The header of a token.  Tokens are signed by one algorithm only; a header names it and may carry
further registered parameters, which have to be of the right kind.
-/

namespace Contestant
namespace TokenHeader

def algorithm : String := "HS256"

def standard : JsonValue := .object [("typ", .text "JWT"), ("alg", .text algorithm)]

def fields : List RecordField :=
  [⟨"typ", .optionalText⟩, ⟨"alg", .value⟩, ⟨"cty", .optionalText⟩, ⟨"jku", .optionalText⟩,
    ⟨"jwk", .value⟩, ⟨"kid", .optionalText⟩, ⟨"x5u", .optionalText⟩, ⟨"x5c", .value⟩,
    ⟨"x5t", .optionalText⟩, ⟨"x5t#S256", .optionalText⟩]

/-- Whether the document of a header admits the token. -/
def admits (document : List UInt8) : Bool :=
  match Record.ofBytes fields document with
  | .error _ => false
  | .ok record =>
    (record.source? "alg").any (PublicKey.isOneOf [algorithm]) &&
      (record.source? "jwk").all PublicKey.isWellFormed &&
      (record.source? "x5c").all PublicKey.isTexts

end TokenHeader
end Contestant
