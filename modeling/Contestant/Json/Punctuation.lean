/-!
The bytes that JSON gives a meaning to.
-/

namespace Contestant
namespace JsonByte

abbrev quote : UInt8 := 0x22
abbrev backslash : UInt8 := 0x5c
abbrev letterU : UInt8 := 0x75
abbrev comma : UInt8 := 0x2c
abbrev colon : UInt8 := 0x3a
abbrev openBracket : UInt8 := 0x5b
abbrev closeBracket : UInt8 := 0x5d
abbrev openBrace : UInt8 := 0x7b
abbrev closeBrace : UInt8 := 0x7d
abbrev plus : UInt8 := 0x2b
abbrev minus : UInt8 := 0x2d
abbrev point : UInt8 := 0x2e

/-- Space, line feed, tab and carriage return. -/
def isBlank (b : UInt8) : Bool := b = 0x20 || b = 0x0a || b = 0x09 || b = 0x0d

def skipBlank (input : List UInt8) : List UInt8 := input.dropWhile isBlank

/-- Controls have to be escaped inside a text. -/
def isControl (b : UInt8) : Bool := b < 0x20

/-- The letter that leads an exponent. -/
def isExponentMark (b : UInt8) : Bool := b = 0x65 || b = 0x45

def digit? (b : UInt8) : Option Nat :=
  if 0x30 ≤ b && b ≤ 0x39 then some (b.toNat - 0x30) else none

def hexDigit? (b : UInt8) : Option Nat :=
  if 0x61 ≤ b && b ≤ 0x66 then some (b.toNat - 0x61 + 10)
  else if 0x41 ≤ b && b ≤ 0x46 then some (b.toNat - 0x41 + 10)
  else digit? b

/-- The letters of escapes and the bytes that they stand for. -/
def escapes : List (UInt8 × UInt8) :=
  [(quote, quote), (backslash, backslash), (0x2f, 0x2f), (0x62, 0x08), (0x66, 0x0c), (0x6e, 0x0a),
    (0x72, 0x0d), (0x74, 0x09)]

/-- The rest behind an expected byte. -/
def expect (expected : UInt8) : List UInt8 → Option (List UInt8)
  | [] => none
  | b :: rest => if b = expected then some rest else none

end JsonByte
end Contestant
