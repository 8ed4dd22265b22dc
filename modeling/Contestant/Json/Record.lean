import Contestant.Json.Passage

/-!
Records: JSON objects with known fields, read from the bytes of a document in one pass.

A record is an object or a list of all its fields in order.  Unknown members of an object are
skipped, a known one may stand only once, and only an optional field may be missing.  A document
fails at the first place where it cannot go on: either it is not JSON, or the value that begins
there is not of the expected kind.
-/

namespace Contestant

inductive JsonFault
  | malformed
  /-- A value is of another kind than expected, or a field is missing or stands twice. -/
  | mismatched
  deriving DecidableEq

/-! ## Fields -/

inductive FieldKind
  | text
  /-- A text or null; a missing member means null. -/
  | optionalText
  /-- Any value; a missing member means null. -/
  | value
  deriving DecidableEq

structure RecordField where
  name : String
  kind : FieldKind
  deriving DecidableEq

inductive FieldValue
  | absent
  | text (value : String)
  | source (value : JsonSource)

/-- The fields that were read, in the order of the document. -/
abbrev Record := List (String × FieldValue)

namespace Record

def text? (record : Record) (name : String) : Option String :=
  match record.lookup name with
  | some (.text value) => some value
  | _ => none

def source? (record : Record) (name : String) : Option JsonSource :=
  match record.lookup name with
  | some (.source value) => some value
  | _ => none

/-! ## Values -/

open JsonSource JsonByte

/-- What goes wrong where another kind of value was expected.  A list or an object shows by its
bracket that it does not fit; any other value is first read to its end. -/
def mismatch (input : List UInt8) : JsonFault :=
  if input.head?.any fun b => b = openBracket || b = openBrace then .mismatched
  else
    match scan input with
    | some (value, _) => if value.passage.isClear then .mismatched else .malformed
    | none => .malformed

/-- The text behind an opening quote. -/
def readQuoted (input : List UInt8) : Except JsonFault (String × List UInt8) :=
  match scanText input with
  | none => .error .malformed
  | some (units, rest) =>
    match TextUnit.toString? units with
    | none => .error .malformed
    | some value => .ok (value, rest)

def readText (input : List UInt8) : Except JsonFault (String × List UInt8) :=
  match skipTo quote input with
  | some rest => readQuoted rest
  | none => .error (mismatch (skipBlank input))

def readField (kind : FieldKind) (input : List UInt8) : Except JsonFault (FieldValue × List UInt8) :=
  match kind with
  | .text => (readText input).map fun (value, rest) => (.text value, rest)
  | .optionalText =>
    match scanWord (skipBlank input) with
    | some (.null, rest) => .ok (.absent, rest)
    | _ => (readText input).map fun (value, rest) => (.text value, rest)
  | .value =>
    match scan input with
    | none => .error .malformed
    | some (.null, rest) => .ok (.absent, rest)
    | some (value, rest) => .ok (.source value, rest)

/-! ## Objects -/

/-- The rest behind a byte without which the text is not JSON. -/
def require (expected : UInt8) (input : List UInt8) : Except JsonFault (List UInt8) :=
  match skipTo expected input with
  | some rest => .ok rest
  | none => .error .malformed

/-- What follows the name of a member.  A name that stands twice is noticed before its value is
looked at.  The fuel has to cover a value that is skipped. -/
def readMember (fields : List RecordField) (fuel : Nat) (seen : Record) (name : String)
    (input : List UInt8) : Except JsonFault (Record × List UInt8) :=
  match fields.find? fun field => field.name = name with
  | none => do
    match scanWith fuel (← require colon input) with
    | some (_, rest) => .ok (seen, rest)
    | none => .error .malformed
  | some field =>
    if (seen.lookup name).isSome then .error .mismatched
    else do
      let (value, rest) ← readField field.kind (← require colon input)
      .ok (seen ++ [(name, value)], rest)

/-- The members up to the closing brace.  A member takes several bytes and a unit of fuel. -/
def readMembers (fields : List RecordField) :
    Nat → Record → List UInt8 → Except JsonFault (Record × List UInt8)
  | 0, _, _ => .error .malformed
  | fuel + 1, seen, input => do
    let (name, rest) ← readQuoted (← require quote input)
    let (seen, rest) ← readMember fields fuel seen name rest
    match skipTo comma rest with
    | some rest => readMembers fields fuel seen rest
    | none => do return (seen, ← require closeBrace rest)

/-- A text is the one kind of field that may not be missing. -/
def isComplete (fields : List RecordField) (seen : Record) : Bool :=
  fields.all fun field => field.kind ≠ .text || (seen.lookup field.name).isSome

/-- An object from behind its opening brace on. -/
def readObject (fields : List RecordField) (input : List UInt8) :
    Except JsonFault (Record × List UInt8) := do
  let (seen, rest) ← match skipTo closeBrace input with
    | some rest => .ok ([], rest)
    | none => readMembers fields (2 * input.length + 2) [] input
  if isComplete fields seen then .ok (seen, rest) else .error .mismatched

/-! ## Lists -/

/-- The fields of a list, after the first one. -/
def readFurther : List RecordField → Record → List UInt8 → Except JsonFault (Record × List UInt8)
  | [], seen, input => do return (seen, ← require closeBracket input)
  | field :: fields, seen, input =>
    if (skipTo closeBracket input).isSome then .error .mismatched
    else do
      let rest ← require comma input
      if (skipTo closeBracket rest).isSome then .error .malformed
      else
        let (value, rest) ← readField field.kind rest
        readFurther fields (seen ++ [(field.name, value)]) rest

/-- A list from behind its opening bracket on. -/
def readList (fields : List RecordField) (input : List UInt8) :
    Except JsonFault (Record × List UInt8) :=
  match fields with
  | [] => readFurther [] [] input
  | field :: fields =>
    if (skipTo closeBracket input).isSome then .error .mismatched
    else do
      let (value, rest) ← readField field.kind input
      readFurther fields [(field.name, value)] rest

/-! ## Whole documents -/

/-- The record at the front of a document. -/
def readFront (fields : List RecordField) (input : List UInt8) :
    Except JsonFault (Record × List UInt8) :=
  match skipTo openBrace input, skipTo openBracket input with
  | some rest, _ => readObject fields rest
  | none, some rest => readList fields rest
  | none, none => .error (mismatch (skipBlank input))

/-- The record that a whole document spells. -/
def ofBytes (fields : List RecordField) (input : List UInt8) : Except JsonFault Record := do
  let (record, rest) ← readFront fields input
  if (skipBlank rest).isEmpty then .ok record else .error .malformed

end Record
end Contestant
