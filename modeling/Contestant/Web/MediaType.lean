/-!
Media types, as far as to tell whether a body is JSON.

A media type is two tokens with a slash between them, followed by parameters.  Letter case does
not matter outside of quoted parameter values.
-/

namespace Contestant
namespace MediaType

def isTokenChar (c : Char) : Bool := c.isAlphanum || "!#$%&'*+-.^_`|~".toList.contains c

def isQuotedChar (c : Char) : Bool := ' ' ≤ c && c ≤ '~'

/-- What follows a quoted value: spaces, and a semicolon before a further parameter. -/
def skipQuotedEnd (input : List Char) : Option (List Char) :=
  match input.dropWhile (· = ' ') with
  | [] => some []
  | ';' :: rest => some rest
  | _ => none

/-- The rest behind the value of a parameter.  A quoted value is not empty; its quotes cannot be
escaped, except that a quote in first place belongs to it. -/
def skipValue : List Char → Option (List Char)
  | '"' :: first :: rest =>
    if isQuotedChar first then
      match rest.dropWhile fun c => isQuotedChar c && c ≠ '"' with
      | '"' :: rest => skipQuotedEnd rest
      | _ => none
    else none
  | input =>
    match input.dropWhile isTokenChar with
    | [] => some []
    | ';' :: rest => if input.head? = some ';' then none else some rest
    | _ => none

/-- Whether a text is a list of parameters, of which the fuel bounds the number. -/
def areParameters : Nat → List Char → Bool
  | 0, _ => false
  | fuel + 1, input =>
    match input.dropWhile (· = ' ') with
    | [] => true
    | input =>
      let name := input.takeWhile isTokenChar
      match input.dropWhile isTokenChar with
      | '=' :: rest => !name.isEmpty && (skipValue rest).any (areParameters fuel)
      | _ => false

/-- A subtype without the suffix behind its last plus sign, and the suffix.  A plus sign in first
place belongs to the subtype. -/
def splitSuffix (subtype : List Char) : List Char × Option (List Char) :=
  let suffix := (subtype.reverse.takeWhile (· ≠ '+')).reverse
  let base := subtype.take (subtype.length - suffix.length - 1)
  if suffix.length < subtype.length && !base.isEmpty then (base, some suffix)
  else (subtype, none)

/-- Whether a subtype is JSON or a format based on it. -/
def isJsonSubtype (subtype : List Char) : Bool :=
  let (base, suffix) := splitSuffix (subtype.map Char.toLower)
  base = "json".toList || suffix = some "json".toList

/-- Whether a header value names JSON as the type of a body. -/
def isJson (value : String) : Bool :=
  let input := value.toList
  let type := input.takeWhile isTokenChar
  match input.dropWhile isTokenChar with
  | '/' :: rest =>
    let subtype := rest.takeWhile isTokenChar
    let rest := rest.dropWhile isTokenChar
    type.map Char.toLower = "application".toList && !subtype.isEmpty && isJsonSubtype subtype &&
      (match rest with
        | [] => true
        | ';' :: parameters => areParameters (parameters.length + 1) parameters
        | _ => false)
  | _ => false

end MediaType
end Contestant
