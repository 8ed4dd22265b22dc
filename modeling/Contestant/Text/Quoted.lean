import Contestant.Text.GraphemeExtend
import Contestant.Text.Unprintable

/-!
Texts in quotes, as log lines show them: what would not be visible on its own is escaped.
-/

namespace Contestant
namespace Text

/-- A code point in hexadecimal, in braces. -/
def escapeCodePoint (c : Char) : List Char :=
  '\\' :: 'u' :: '\x7b' :: (Nat.toDigits 16 c.toNat ++ ['\x7d'])

/-- A character inside quotes: itself if it is printed and joins nothing before it. -/
def escapeVisible (c : Char) : List Char :=
  if c.toNat = 0 then ['\\', '0']
  else if c = '\t' then ['\\', 't']
  else if c = '\r' then ['\\', 'r']
  else if c = '\n' then ['\\', 'n']
  else if c = '"' then ['\\', '"']
  else if c = '\\' then ['\\', '\\']
  else if ' ' ≤ c && c ≤ '~' then [c]
  else if isGraphemeExtend c || isUnprintable c then escapeCodePoint c
  else [c]

def quoted (text : String) : String :=
  String.ofList ('"' :: (text.toList.flatMap escapeVisible ++ ['"']))

end Text
end Contestant
