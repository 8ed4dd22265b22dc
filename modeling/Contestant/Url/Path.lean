import Contestant.Text.Split
import Contestant.Url.Percent

/-!
The path of a URL whose scheme has no rules of its own, set from a text.

Tabs and line ends are dropped, what may not stand in a path is percent-encoded, and dot segments
are resolved, also where a dot is spelled `%2e`.  A double dot does not remove a segment that
looks like a drive letter.
-/

namespace Contestant
namespace Url

/-- Tab, line feed and carriage return vanish before anything else happens. -/
def isDropped (c : Char) : Bool := c = '\t' || c = '\n' || c = '\r'

/-- The characters that stand for themselves in a path: visible ASCII without a few marks. -/
def isPathChar (c : Char) : Bool :=
  '!' ≤ c && c ≤ '~' && !"\"#<>?`\x7b\x7d".toList.contains c

def isSingleDot (segment : List Char) : Bool :=
  ["." , "%2e"].contains (String.ofList (segment.map Char.toLower))

def isDoubleDot (segment : List Char) : Bool :=
  ["..", ".%2e", "%2e.", "%2e%2e"].contains (String.ofList (segment.map Char.toLower))

/-- A letter and a colon or bar, with nothing or a backslash after them. -/
def isDriveLetter : List Char → Bool
  | letter :: mark :: rest =>
    letter.isAlpha && (mark = ':' || mark = '|') && (rest.isEmpty || rest.head? = some '\\')
  | _ => false

/-- The completed segments, last first, without the last one. -/
def shorten : List (List Char) → List (List Char)
  | [] => []
  | last :: more => if isDriveLetter last then last :: more else more

/-- Resolves dot segments; `done` holds the completed segments, last first.  Where the path ends
in a dot segment it ends in a slash. -/
def resolve (done : List (List Char)) : List (List Char) → List (List Char)
  | [] => done.reverse
  | [last] =>
    if isDoubleDot last then ([] :: shorten done).reverse
    else if isSingleDot last then ([] :: done).reverse
    else (last :: done).reverse
  | segment :: rest =>
    if isDoubleDot segment then resolve (shorten done) rest
    else if isSingleDot segment then resolve done rest
    else resolve (segment :: done) rest

/-- The path that a text after the leading slash amounts to. -/
def path (text : List Char) : List Char :=
  let encoded := Percent.encode isPathChar (text.filter (!isDropped ·))
  (resolve [] (Text.parts '/' encoded)).flatMap ('/' :: ·)

end Url
end Contestant
