import Contestant.Number.Layout
import Contestant.Time.Instant

/-!
JSON values and their compact text.
-/

namespace Contestant

/-- A JSON value; the members of an object keep their order, and a number is its literal. -/
inductive JsonValue
  | null
  | bool (value : Bool)
  | number (literal : String)
  | text (value : String)
  | list (items : List JsonValue)
  | object (members : List (String × JsonValue))

namespace JsonValue

/-! ## Values of other types -/

def ofInt (n : Int) : JsonValue := .number (toString n)

def ofNat (n : Nat) : JsonValue := .number (toString n)

/-- A double in the document format; what is not a number becomes `null`. -/
def ofDouble (x : Binary64) : JsonValue :=
  if x.isFinite then .number (Layout.document.write x) else .null

def ofTexts (texts : List String) : JsonValue := .list (texts.map .text)

def ofInstant? : Option Instant → JsonValue
  | some t => .text t.text
  | none => .null

/-! ## Text -/

def hexDigit (n : Nat) : Char :=
  if n < 10 then Char.ofNat ('0'.toNat + n) else Char.ofNat ('a'.toNat + (n - 10))

/-- A character inside quotes.  Only the quote, the backslash and the controls below the space are
escaped, the common ones by a letter. -/
def escapeChar (c : Char) : List Char :=
  if c = '"' then ['\\', '"']
  else if c = '\\' then ['\\', '\\']
  else if c = '\n' then ['\\', 'n']
  else if c = '\r' then ['\\', 'r']
  else if c = '\t' then ['\\', 't']
  else if c.toNat = 8 then ['\\', 'b']
  else if c.toNat = 12 then ['\\', 'f']
  else if c.toNat < 32 then
    ['\\', 'u', '0', '0', hexDigit (c.toNat / 16), hexDigit (c.toNat % 16)]
  else [c]

def quote (text : String) : List Char := '"' :: (text.toList.flatMap escapeChar ++ ['"'])

mutual

/-- The compact text of a value: no white space outside of strings. -/
def write : JsonValue → List Char
  | null => "null".toList
  | bool true => "true".toList
  | bool false => "false".toList
  | number literal => literal.toList
  | text value => quote value
  | list items => '[' :: (writeItems items ++ [']'])
  | object members => '\x7b' :: (writeMembers members ++ ['\x7d'])

def writeItems : List JsonValue → List Char
  | [] => []
  | [item] => write item
  | item :: rest => write item ++ ',' :: writeItems rest

def writeMembers : List (String × JsonValue) → List Char
  | [] => []
  | [(name, value)] => quote name ++ ':' :: write value
  | (name, value) :: rest => quote name ++ ':' :: write value ++ ',' :: writeMembers rest

end

def toText (value : JsonValue) : String := String.ofList value.write

end JsonValue
end Contestant
