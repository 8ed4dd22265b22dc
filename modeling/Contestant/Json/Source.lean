import Contestant.Json.Punctuation
import Contestant.Text.Utf8

/-!
JSON as it is written: the scanner of one value from the front of some bytes.

Scanning settles the grammar and nothing else.  A text keeps its bytes and its UTF-16 escapes as
they stand, and a number its digits.  So a value that nobody looks at may hold bytes that are no
UTF-8, half a surrogate pair or a number that no double reaches.
-/

namespace Contestant

/-! ## Values as written -/

/-- An element of a text: a byte, or a UTF-16 unit spelled by an escape. -/
inductive TextUnit
  | byte (value : UInt8)
  | code (unit : Nat)
  deriving DecidableEq

/-- A number: a sign, digits, the digits of a fraction, and an exponent with its sign. -/
structure NumberLiteral where
  negative : Bool
  whole : List Nat
  fraction : List Nat
  exponent : Option (Bool × List Nat)
  deriving DecidableEq

inductive JsonSource
  | null
  | bool (value : Bool)
  | number (literal : NumberLiteral)
  | text (units : List TextUnit)
  | list (items : List JsonSource)
  | object (members : List (List TextUnit × JsonSource))

/-! ## What they denote -/

namespace TextUnit

def isHigh (unit : Nat) : Bool := 0xd800 ≤ unit && unit < 0xdc00

def isLow (unit : Nat) : Bool := 0xdc00 ≤ unit && unit < 0xe000

def pair (high low : Nat) : Char :=
  Char.ofNat (0x10000 + (high - 0xd800) * 0x400 + (low - 0xdc00))

/-- The bytes of a text.  Surrogates have to be spelled in pairs. -/
def join : List TextUnit → Option (List UInt8)
  | [] => some []
  | byte b :: rest => (join rest).map (b :: ·)
  | code unit :: rest =>
    if isHigh unit then
      match rest with
      | code low :: rest =>
        if isLow low then (join rest).map (Utf8.encode [pair unit low] ++ ·) else none
      | _ => none
    else if isLow unit then none
    else (join rest).map (Utf8.encode [Char.ofNat unit] ++ ·)

def toString? (units : List TextUnit) : Option String :=
  ((join units).bind Utf8.decode?).map String.ofList

end TextUnit

namespace NumberLiteral

/-- A natural number written as digits alone. -/
def natural? (n : NumberLiteral) : Option Nat :=
  if n.negative || !n.fraction.isEmpty || n.exponent.isSome then none
  else some (n.whole.foldl (fun value digit => 10 * value + digit) 0)

end NumberLiteral

namespace JsonSource

def asText? : JsonSource → Option String
  | text units => TextUnit.toString? units
  | _ => none

def asNatural? : JsonSource → Option Nat
  | number literal => literal.natural?
  | _ => none

def isNull : JsonSource → Bool
  | null => true
  | _ => false

/-- A name out of a fixed set: a text, or an object that maps it to null. -/
def asName? : JsonSource → Option String
  | text units => TextUnit.toString? units
  | object [(units, null)] => TextUnit.toString? units
  | _ => none

/-! ## Scanning -/

open JsonByte

def hexUnit (digits : List UInt8) : Option Nat :=
  (digits.mapM hexDigit?).map fun values => values.foldl (fun n d => 16 * n + d) 0

/-- A text from behind its opening quote on. -/
def scanText : List UInt8 → Option (List TextUnit × List UInt8)
  | [] => none
  | b :: rest =>
    if b = quote then some ([], rest)
    else if b = backslash then
      match rest with
      | [] => none
      | letter :: rest =>
        if letter = letterU then
          match rest with
          | h₁ :: h₂ :: h₃ :: h₄ :: rest => do
            let unit ← hexUnit [h₁, h₂, h₃, h₄]
            let (units, rest) ← scanText rest
            return (.code unit :: units, rest)
          | _ => none
        else do
          let value ← escapes.lookup letter
          let (units, rest) ← scanText rest
          return (.byte value :: units, rest)
    else if isControl b then none
    else (scanText rest).map fun (units, rest) => (.byte b :: units, rest)

def spanDigits : List UInt8 → List Nat × List UInt8
  | [] => ([], [])
  | b :: rest =>
    match digit? b with
    | some digit =>
      let (digits, rest) := spanDigits rest
      (digit :: digits, rest)
    | none => ([], b :: rest)

/-- A run of at least one digit. -/
def scanDigits (input : List UInt8) : Option (List Nat × List UInt8) :=
  match spanDigits input with
  | ([], _) => none
  | (digits, rest) => some (digits, rest)

/-- The whole part of a number: no digit follows a leading zero. -/
def scanWhole (input : List UInt8) : Option (List Nat × List UInt8) :=
  (scanDigits input).filter fun (digits, _) => digits.head? ≠ some 0 || digits.length = 1

def scanFraction (input : List UInt8) : Option (List Nat × List UInt8) :=
  match expect point input with
  | some rest => scanDigits rest
  | none => some ([], input)

/-- Whether a minus sign leads, and the rest behind it if one does. -/
def spanMinus (input : List UInt8) : Bool × List UInt8 :=
  match expect minus input with
  | some rest => (true, rest)
  | none => (false, input)

def scanExponent : List UInt8 → Option (Option (Bool × List Nat) × List UInt8)
  | [] => some (none, [])
  | b :: rest =>
    if isExponentMark b then
      let (negative, rest) := match expect plus rest with
        | some rest => (false, rest)
        | none => spanMinus rest
      (scanDigits rest).map fun (digits, rest) => (some (negative, digits), rest)
    else some (none, b :: rest)

def scanNumber (input : List UInt8) : Option (NumberLiteral × List UInt8) := do
  let (negative, rest) := spanMinus input
  let (whole, rest) ← scanWhole rest
  let (fraction, rest) ← scanFraction rest
  let (exponent, rest) ← scanExponent rest
  return (⟨negative, whole, fraction, exponent⟩, rest)

def scanWord (input : List UInt8) : Option (JsonSource × List UInt8) :=
  [("null", null), ("true", bool true), ("false", bool false)].findSome? fun (word, value) =>
    ((Utf8.encode word.toList).isPrefixOf? input).map (value, ·)

/-- The rest behind an expected byte and the blanks in front of it. -/
def skipTo (expected : UInt8) (input : List UInt8) : Option (List UInt8) :=
  expect expected (skipBlank input)

def scanName (input : List UInt8) : Option (List TextUnit × List UInt8) :=
  (skipTo quote input).bind scanText

mutual

/-- The value at the front of some bytes, with the depth of nesting and the number of elements
bounded by the fuel. -/
def scanWith : Nat → List UInt8 → Option (JsonSource × List UInt8)
  | 0, _ => none
  | fuel + 1, input =>
    match skipBlank input with
    | [] => none
    | b :: rest =>
      if b = quote then (scanText rest).map fun (units, rest) => (.text units, rest)
      else if b = openBracket then
        match skipTo closeBracket rest with
        | some rest => some (list [], rest)
        | none => (scanItems fuel rest).map fun (items, rest) => (list items, rest)
      else if b = openBrace then
        match skipTo closeBrace rest with
        | some rest => some (object [], rest)
        | none => (scanMembers fuel rest).map fun (members, rest) => (object members, rest)
      else
        scanWord (b :: rest) <|>
          (scanNumber (b :: rest)).map fun (literal, rest) => (number literal, rest)

def scanItems : Nat → List UInt8 → Option (List JsonSource × List UInt8)
  | 0, _ => none
  | fuel + 1, input => do
    let (item, rest) ← scanWith fuel input
    match skipTo comma rest with
    | some rest =>
      let (items, rest) ← scanItems fuel rest
      return (item :: items, rest)
    | none => (skipTo closeBracket rest).map fun rest => ([item], rest)

def scanMembers : Nat → List UInt8 → Option (List (List TextUnit × JsonSource) × List UInt8)
  | 0, _ => none
  | fuel + 1, input => do
    let (name, rest) ← scanName input
    let rest ← skipTo colon rest
    let (value, rest) ← scanWith fuel rest
    match skipTo comma rest with
    | some rest =>
      let (members, rest) ← scanMembers fuel rest
      return ((name, value) :: members, rest)
    | none => (skipTo closeBrace rest).map fun rest => ([(name, value)], rest)

end

/-- The value at the front of some bytes.  Each level and each element takes at least one byte,
so the fuel covers every value. -/
def scan (input : List UInt8) : Option (JsonSource × List UInt8) :=
  scanWith (2 * input.length + 2) input

end JsonSource
end Contestant
