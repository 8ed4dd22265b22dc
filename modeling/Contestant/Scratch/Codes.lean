import Contestant.Fault
import Contestant.Text.Blank
import Contestant.Text.Radix
import Contestant.Text.Utf8

/-!
Scratch codes: single-use recovery codes, and the text in which an account's unused ones are
stored.

The stored text is a bracketed list of quoted codes, separated by a comma and any number of
spaces.  The empty text stands for no codes, as the empty list does.
-/

namespace Contestant
namespace Scratch

def codeLength : Nat := 16

/-- An upper-case letter or a digit. -/
def isSymbol (c : Char) : Bool := c.isUpper || c.isDigit

structure Code where
  symbols : List Char
  wellFormed : symbols.length = codeLength ∧ symbols.all isSymbol = true
  deriving DecidableEq

namespace Code

def ofSymbols? (symbols : List Char) : Option Code :=
  if h : symbols.length = codeLength ∧ symbols.all isSymbol = true then some ⟨symbols, h⟩
  else none

def text (code : Code) : String := String.ofList code.symbols

def quoted (code : Code) : List Char := '"' :: (code.symbols ++ ['"'])

end Code

/-- Sixteen random values, one for each symbol of a code. -/
abbrev Draw := Vector (Fin 32) 16

theorem isSymbol_base32 : ∀ n : Fin 32, isSymbol (Alphabet.base32.symbol n.val) = true := by
  decide

def Code.ofDraw (draw : Draw) : Code where
  symbols := draw.toList.map fun n => Alphabet.base32.symbol n.val
  wellFormed := by
    refine ⟨by simp [codeLength], ?_⟩
    simp only [List.all_map, List.all_eq_true, Function.comp_apply]
    exact fun n _ => isSymbol_base32 n

/-- An account's unused codes, in the order of issue. -/
structure Codes where
  codes : List Code
  deriving DecidableEq

namespace Codes

def ofDraws (draws : List Draw) : Codes := ⟨draws.map Code.ofDraw⟩

def texts (c : Codes) : List String := c.codes.map Code.text

def size (c : Codes) : Nat := c.codes.length

def isEmpty (c : Codes) : Bool := c.codes.isEmpty

/-! ## Stored text -/

/-- A quoted code, and what follows it. -/
def readCode : List Char → Option (Code × List Char)
  | '"' :: rest =>
    match Code.ofSymbols? (rest.take codeLength), rest.drop codeLength with
    | some code, '"' :: tail => some (code, tail)
    | _, _ => none
  | _ => none

theorem length_of_readCode {text : List Char} {code : Code} {tail : List Char}
    (h : readCode text = some (code, tail)) : tail.length < text.length := by
  unfold readCode at h
  split at h
  · split at h
    next heq =>
      simp only [Option.some.injEq, Prod.mk.injEq] at h
      have := congrArg List.length heq
      simp only [List.length_drop, List.length_cons] at this
      simp only [List.length_cons, ← h.2]
      omega
    · simp at h
  · simp at h

theorem length_dropWhile_le (p : Char → Bool) (text : List Char) :
    (text.dropWhile p).length ≤ text.length :=
  (List.dropWhile_sublist p).length_le

/-- One or more codes up to the closing bracket, which ends the text. -/
def readCodes (text : List Char) : Option (List Code) :=
  match _ : readCode text with
  | some (code, [']']) => some [code]
  | some (code, ',' :: tail) => (readCodes (tail.dropWhile (· = ' '))).map (code :: ·)
  | _ => none
termination_by text.length
decreasing_by
  rename_i h
  have := length_of_readCode h
  have := length_dropWhile_le (fun c => decide (c = ' ')) tail
  simp only [List.length_cons] at *
  omega

/-- The codes of a stored text; no text is the empty one. -/
def parse (stored : Option String) : Except InputFault Codes :=
  let read : Option (List Code) := match (stored.getD "").toList with
    | [] => some []
    | ['[', ']'] => some []
    | '[' :: rest => readCodes rest
    | _ => none
  match read with
  | some codes => .ok ⟨codes⟩
  | none => .error .malformedScratchCodes

/-- The quoted codes with a comma between any two. -/
def writeCodes : List Code → List Char
  | [] => []
  | [code] => code.quoted
  | code :: rest => code.quoted ++ ',' :: writeCodes rest

/-- The text in which codes are stored. -/
def toJson (c : Codes) : String := String.ofList ('[' :: (writeCodes c.codes ++ [']']))

/-! ## Use -/

/-- What a candidate is compared as: without white space at its ends and in upper case. -/
def normalize (candidate : String) : List Char := (Text.trim candidate.toList).map Char.toUpper

/-- Removes the first code that a candidate matches; none if it matches no code. -/
def consume (c : Codes) (candidate : String) : Option Codes :=
  let wanted := normalize candidate
  if Utf8.size wanted ≠ codeLength then none
  else if c.codes.any (·.symbols = wanted) then
    some ⟨c.codes.eraseP (·.symbols = wanted)⟩
  else none

end Codes
end Scratch
end Contestant
