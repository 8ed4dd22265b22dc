import Contestant.Number.Reading
import Contestant.Text.Radix
import Contestant.Text.Split
import Contestant.Text.Utf8

/-!
The text form of a password hash: fields behind dollar signs.

The fields are the name of the algorithm, then where present the version, the parameters, the
salt and the digest.  The text is read from left to right and the first fault is reported; the
parameters are only checked for their spelling.
-/

namespace Contestant

inductive ValueFault
  | malformed
  | character (c : Char)
  | format
  | tooLong
  | tooShort
  deriving DecidableEq

def ValueFault.message : ValueFault → String
  | malformed => "value malformed"
  | character c => "contains invalid character: '" ++ String.singleton c ++ "'"
  | format => "value format is invalid"
  | tooLong => "value to long"
  | tooShort => "value to short"

inductive HashTextFault
  | missingField
  | name
  | value (fault : ValueFault)
  | tooManyParameters
  | salt (fault : ValueFault)
  | digestLength
  | digestSymbols
  | digestTooShort
  | trailing
  deriving DecidableEq

def HashTextFault.message : HashTextFault → String
  | missingField => "password hash string missing field"
  | name => "invalid parameter name"
  | value fault => "invalid parameter value: " ++ fault.message
  | tooManyParameters => "maximum number of parameters reached"
  | salt fault => "salt invalid: " ++ fault.message
  | digestLength => "invalid Base64 length"
  | digestSymbols => "invalid Base64 encoding"
  | digestTooShort => "output size too short, expected at least 10 bytes"
  | trailing => "password hash string contains trailing characters"

structure HashText where
  algorithm : String
  version : Option Nat
  parameters : List (String × String)
  salt : Option String
  digest : Option (List UInt8)
  deriving DecidableEq

namespace HashText

/-! ## Names and values -/

def isNameChar (c : Char) : Bool := c.isLower || c.isDigit || c = '-'

def readName (input : List Char) : Except HashTextFault String :=
  if 1 ≤ input.length && input.length ≤ 32 && input.all isNameChar then
    .ok (String.ofList input)
  else .error .name

def isValueChar (c : Char) : Bool := c.isAlphanum || ['/', '+', '.', '-'].contains c

def readValue (input : List Char) : Except ValueFault String :=
  if 64 < Utf8.size input then .error .tooLong
  else
    match input.find? (!isValueChar ·) with
    | some c => .error (.character c)
    | none => .ok (String.ofList input)

/-- A natural number of 32 bits, without leading zeros. -/
def readDecimal (value : String) : Except ValueFault Nat :=
  let digits := value.toList
  match digits.find? (!Char.isDigit ·) with
  | some c => .error (.character c)
  | none =>
    if digits.isEmpty then .error .malformed
    else if digits.head? = some '0' && digits.length ≠ 1 then .error .format
    else if digitsValue digits < UInt32.size then .ok (digitsValue digits)
    else .error .format

/-! ## Fields -/

def readVersion (input : List Char) : Except HashTextFault Nat :=
  ((readValue input).bind readDecimal).mapError .value

/-- One parameter: a name, an equals sign and a value without another one. -/
def readParameter (input : List Char) : Except HashTextFault (String × String) :=
  match Text.parts '=' input with
  | [] => .error .name
  | [name] => do
    let _ ← readName name
    .error (.value .malformed)
  | [name, value] => do return (← readName name, ← (readValue value).mapError .value)
  | name :: value :: _ => do
    let _ ← readName name
    let _ ← (readValue value).mapError .value
    .error (.value .malformed)

def readParameters (input : List Char) : Except HashTextFault (List (String × String)) :=
  if 127 < Utf8.size input then .error .tooManyParameters
  else (Text.parts ',' input).mapM readParameter

def readSalt (input : List Char) : Except HashTextFault String :=
  let size := Utf8.size input
  if size < 4 then .error (.salt .tooShort)
  else if 64 < size then .error (.salt .tooLong)
  else (readValue input).mapError .salt

/-- A digest has between 10 and 64 bytes. -/
def readDigest (input : List Char) : Except HashTextFault (List UInt8) :=
  if 64 < 3 * Utf8.size input / 4 then .error .digestLength
  else
    match Alphabet.base64.decode? input with
    | none => .error .digestSymbols
    | some bytes => if bytes.length < 10 then .error .digestTooShort else .ok bytes

/-! ## The whole text -/

/-- Whether a field is the version: it is marked as such and cannot be a list of parameters. -/
def versionDigits? : List Char → Option (List Char)
  | 'v' :: '=' :: rest => if rest.contains ',' then none else some rest
  | _ => none

def takeVersion : List (List Char) → Except HashTextFault (Option Nat × List (List Char))
  | [] => .ok (none, [])
  | field :: rest =>
    match versionDigits? field with
    | some digits => (readVersion digits).map fun version => (some version, rest)
    | none => .ok (none, field :: rest)

def takeParameters :
    List (List Char) → Except HashTextFault (List (String × String) × List (List Char))
  | [] => .ok ([], [])
  | field :: rest =>
    if field.contains '=' then (readParameters field).map fun parameters => (parameters, rest)
    else .ok ([], field :: rest)

def read (input : List Char) : Except HashTextFault HashText :=
  match Text.parts '$' input with
  | [] :: algorithm :: fields => do
    let algorithm ← readName algorithm
    let (version, fields) ← takeVersion fields
    let (parameters, fields) ← takeParameters fields
    match fields with
    | [] => return ⟨algorithm, version, parameters, none, none⟩
    | [salt] => return ⟨algorithm, version, parameters, some (← readSalt salt), none⟩
    | salt :: digest :: more =>
      let salt ← readSalt salt
      let digest ← readDigest digest
      if more.isEmpty then return ⟨algorithm, version, parameters, some salt, some digest⟩
      else .error .trailing
  | _ => .error .missingField

def write (h : HashText) : String :=
  let part (field : String) : String := "$" ++ field
  let version := match h.version with
    | some n => part ("v=" ++ toString n)
    | none => ""
  let parameters := if h.parameters.isEmpty then "" else
    part (",".intercalate (h.parameters.map fun (name, value) => name ++ "=" ++ value))
  let digest := h.digest.map fun bytes => String.ofList (Alphabet.base64.encode bytes)
  part h.algorithm ++ version ++ parameters ++ (h.salt.map part).getD "" ++
    (digest.map part).getD ""

end HashText
end Contestant
