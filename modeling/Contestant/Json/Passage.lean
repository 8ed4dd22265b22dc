import Contestant.Json.Source
import Contestant.Number.Arithmetic
import Contestant.Number.Reading

/-!
Reading past values that denote nothing.

A value may be written by the grammar and still denote nothing: half a surrogate pair, bytes that
are no UTF-8, a number beyond the doubles, lists in lists without end.  A reader that can do
without the value may go on behind it, but only if the fault came up with the last byte of the
value; otherwise it is left standing inside.
-/

namespace Contestant

/-- How reading gets past a value. -/
inductive Passage
  /-- The value denotes something. -/
  | clear
  /-- The value denotes nothing, which shows at its end. -/
  | spoiled
  /-- The value denotes nothing, and reading does not reach its end. -/
  | stuck
  deriving DecidableEq

namespace Passage

def isClear (p : Passage) : Bool := p = .clear

/-- Whether reading goes on behind the value. -/
def isPassable (p : Passage) : Bool := p ≠ .stuck

/-- A value with further values behind it in the same list or object, which are only looked at
if it denotes something. -/
def andThen (first rest : Passage) : Passage := if first.isClear then rest else stuck

end Passage

/-! ## Texts -/

namespace TextUnit

/-- The check of surrogates, which runs with the units.  What follows the first half of a pair is
taken for the second half: of a text that ends there it is the closing quote. -/
def pairing : List TextUnit → Passage
  | [] => .clear
  | byte _ :: rest => pairing rest
  | code unit :: rest =>
    if isHigh unit then
      match rest with
      | [] => .spoiled
      | code low :: rest => if isLow low then pairing rest else .stuck
      | byte _ :: _ => .stuck
    else if isLow unit then .stuck
    else pairing rest

/-- The check of UTF-8 comes when the whole text is at hand. -/
def passage (units : List TextUnit) : Passage :=
  if (pairing units).isClear && (toString? units).isNone then .spoiled else pairing units

end TextUnit

/-! ## Numbers -/

namespace NumberLiteral

/-- The number that digits continue, as far as it fits into 64 bits, and how many of them it
takes. -/
def extend (value : Nat) : List Nat → Nat × Nat
  | [] => (value, 0)
  | digit :: rest =>
    if 10 * value + digit < UInt64.size then
      let (value, count) := extend (10 * value + digit) rest
      (value, count + 1)
    else (value, 0)

/-- The digits of a number as a natural number of 64 bits, and the power of ten that goes with
it.  A digit of the whole part that no longer fits counts for the power alone, and one of the
fraction not at all. -/
def significand (n : NumberLiteral) : Nat × Int :=
  let (value, count) := extend 0 n.whole
  let (value, places) := extend value n.fraction
  (value, ((n.whole.length - count : Nat) : Int) - places)

/-- Whether a double holds `value * 10^exponent`.  Both factors are rounded before they are
multiplied, and no power from `10^309` on is one. -/
def isInRange (value : Nat) (exponent : Int) : Bool :=
  if value = 0 || exponent < 0 then true
  else exponent ≤ 308 &&
    (Binary64.ofDecimal false value 0 * Binary64.ofDecimal false 1 exponent).isFinite

/-- The exponent that digits spell, as far as it fits into a signed number of 32 bits, and the
digits behind the first that does not fit. -/
def readExponent (value : Nat) : List Nat → Nat × Option (List Nat)
  | [] => (value, none)
  | digit :: rest =>
    if 10 * value + digit < Nat.pow 2 31 then readExponent (10 * value + digit) rest
    else (value, some rest)

def passage (n : NumberLiteral) : Passage :=
  let (value, exponent) := n.significand
  let (negative, digits) := n.exponent.getD (false, [])
  match readExponent 0 digits with
  | (power, none) =>
    let exponent := if negative then exponent - power else exponent + power
    if isInRange value exponent then .clear else .spoiled
  | (_, some rest) =>
    if value = 0 || negative then .clear
    else if rest.isEmpty then .spoiled
    else .stuck

end NumberLiteral

/-! ## Values -/

namespace JsonSource

mutual

/-- How many lists and objects stand around the innermost place of a value. -/
def nesting : JsonSource → Nat
  | list items => itemsNesting items + 1
  | object members => membersNesting members + 1
  | _ => 0

def itemsNesting : List JsonSource → Nat
  | [] => 0
  | item :: rest => max (nesting item) (itemsNesting rest)

def membersNesting : List (List TextUnit × JsonSource) → Nat
  | [] => 0
  | (_, value) :: rest => max (nesting value) (membersNesting rest)

end

/-- The deepest nesting of a value that is a member of the document's object. -/
def nestingLimit : Nat := 126

mutual

/-- The passage of a value whatever its nesting.  A fault of the last item shows at the end of
the list too, since the closing bracket may still follow. -/
def shallowPassage : JsonSource → Passage
  | null => .clear
  | bool _ => .clear
  | number literal => literal.passage
  | text units => TextUnit.passage units
  | list items => itemsPassage items
  | object members => membersPassage members

def itemsPassage : List JsonSource → Passage
  | [] => .clear
  | [item] => shallowPassage item
  | item :: rest => (shallowPassage item).andThen (itemsPassage rest)

def membersPassage : List (List TextUnit × JsonSource) → Passage
  | [] => .clear
  | [(name, value)] => (TextUnit.passage name).andThen (shallowPassage value)
  | (name, value) :: rest =>
    (TextUnit.passage name).andThen ((shallowPassage value).andThen (membersPassage rest))

end

/-- The passage of a member of the document's object. -/
def passage (value : JsonSource) : Passage :=
  if nestingLimit < value.nesting then .stuck else value.shallowPassage

end JsonSource
end Contestant
