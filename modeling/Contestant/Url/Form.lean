import Contestant.Url.Percent

/-!
Name and value pairs in the form encoding of queries.
-/

namespace Contestant
namespace Form

def isFormChar (c : Char) : Bool := c.isAlphanum || "*-._".toList.contains c

/-- A name or a value: a space becomes a plus sign, and all else that is not kept is escaped. -/
def encodeText (text : String) : List Char :=
  (Percent.encode (fun c => isFormChar c || c = ' ') text.toList).map fun c =>
    if c = ' ' then '+' else c

def encodePair (pair : String × String) : List Char :=
  encodeText pair.1 ++ '=' :: encodeText pair.2

/-- The pairs in order, with an ampersand between any two. -/
def encode : List (String × String) → List Char
  | [] => []
  | [pair] => encodePair pair
  | pair :: rest => encodePair pair ++ '&' :: encode rest

end Form
end Contestant
