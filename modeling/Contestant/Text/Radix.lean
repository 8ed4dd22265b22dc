import Contestant.Text.Bits

/-!
Bytes as text in an alphabet of `2^width` symbols, without padding.

Each symbol stands for `width` binary digits.  The last one is filled up with zeros on writing,
and reading accepts no other filling and no symbol that adds only filling, so every byte string
has one text and every accepted text is the text of its bytes.
-/

namespace Contestant

/-- An alphabet of `2^width` symbols: the symbol of each value, and the value of a symbol. -/
structure Alphabet where
  width : Nat
  symbol : Nat → Char
  value : Char → Option Nat

namespace Alphabet

/-- The symbols with values from `first` on, from the character `low` to the character `high`. -/
def range (low high : Char) (first : Nat) (c : Char) : Option Nat :=
  if low ≤ c && c ≤ high then some (first + (c.toNat - low.toNat)) else none

/-- The character `n` places after `low`. -/
def after (low : Char) (n : Nat) : Char := Char.ofNat (low.toNat + n)

/-- Upper-case letters and the digits from 2 to 7. -/
def base32 : Alphabet where
  width := 5
  symbol n := if n < 26 then after 'A' n else after '2' (n - 26)
  value c := (range 'A' 'Z' 0 c).or (range '2' '7' 26 c)

/-- Letters and digits, then two further symbols. -/
def sixBit (symbol62 symbol63 : Char) : Alphabet where
  width := 6
  symbol n :=
    if n < 26 then after 'A' n
    else if n < 52 then after 'a' (n - 26)
    else if n < 62 then after '0' (n - 52)
    else if n = 62 then symbol62 else symbol63
  value c :=
    (range 'A' 'Z' 0 c).or <| (range 'a' 'z' 26 c).or <| (range '0' '9' 52 c).or <|
      if c = symbol62 then some 62 else if c = symbol63 then some 63 else none

def base64 : Alphabet := sixBit '+' '/'

/-- The alphabet of tokens, whose symbols stand unescaped in a URL. -/
def base64Url : Alphabet := sixBit '-' '_'

/-- Fills a last group up with zeros; a full one and an empty rest stay. -/
def padRight (width : Nat) (bits : List Bool) : List Bool :=
  bits ++ List.replicate ((width - bits.length % width) % width) false

def encode (a : Alphabet) (bytes : List UInt8) : List Char :=
  (Bits.groups a.width (padRight a.width (Bits.ofBytes bytes))).1.map fun g =>
    a.symbol (Bits.toNat g)

/-- The bytes that a text of symbols denotes. -/
def decode? (a : Alphabet) (text : List Char) : Option (List UInt8) :=
  (text.mapM a.value).bind fun values =>
    let (bytes, rest) := Bits.toBytes (values.flatMap (Bits.ofNat a.width))
    if rest.length < a.width && rest.all (!·) then some bytes else none

end Alphabet
end Contestant
