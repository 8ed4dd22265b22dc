import Contestant.Json.Passage

/-!
The shape of a public key that a token's header may carry.  The key is not used; a header whose
key is not well-formed is refused as a whole.
-/

namespace Contestant
namespace PublicKey

open JsonSource

abbrev Members := List (List TextUnit × JsonSource)

def values (members : Members) (name : String) : List JsonSource :=
  (members.filter fun (units, _) => TextUnit.toString? units = some name).map Prod.snd

/-- Exactly one value, of the given kind. -/
def required (members : Members) (kind : JsonSource → Bool) (name : String) : Bool :=
  match values members name with
  | [value] => kind value
  | _ => false

/-- At most one value, which is null or of the given kind. -/
def optional (members : Members) (kind : JsonSource → Bool) (name : String) : Bool :=
  match values members name with
  | [] => true
  | [value] => value.isNull || kind value
  | _ => false

def isText (value : JsonSource) : Bool := value.asText?.isSome

def isTexts : JsonSource → Bool
  | .list items => items.all isText
  | _ => false

def isOneOf (names : List String) (value : JsonSource) : Bool :=
  value.asName?.any names.contains

def algorithms : List String :=
  ["HS256", "HS384", "HS512", "ES256", "ES384", "RS256", "RS384", "RS512", "PS256", "PS384",
    "PS512", "EdDSA", "RSA1_5", "RSA-OAEP", "RSA-OAEP-256"]

def curves : List String := ["P-256", "P-384", "P-521", "Ed25519"]

/-- The algorithm of a key may also be mapped to an empty object. -/
def isAlgorithm : JsonSource → Bool
  | .object [(units, .object [])] => isOneOf algorithms (.text units)
  | value => isOneOf algorithms value

/-- The parameters that keys of every type may have. -/
def hasCommonParameters (members : Members) : Bool :=
  ["use", "kid", "x5u", "x5t", "x5t#S256"].all (optional members isText) &&
    ["key_ops", "x5c"].all (optional members isTexts) &&
    optional members isAlgorithm "alg"

/-- The parameters of one of the four types of keys. -/
def hasKeyParameters (members : Members) : Bool :=
  let type (name : String) : Bool := required members (isOneOf [name]) "kty"
  let curve : Bool := required members (isOneOf curves) "crv"
  let texts (names : List String) : Bool := names.all (required members isText)
  type "EC" && curve && texts ["x", "y"] || type "RSA" && texts ["n", "e"] ||
    type "oct" && texts ["k"] || type "OKP" && curve && texts ["x"]

def isWellFormed : JsonSource → Bool
  | .object members =>
    (JsonSource.object members).passage.isClear && hasCommonParameters members &&
      hasKeyParameters members
  | _ => false

end PublicKey
end Contestant
