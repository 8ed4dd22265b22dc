import Contestant.Scratch.Codes

/-!
The text in which scratch codes are stored reads back as the same codes.
-/

namespace Contestant
namespace Scratch

theorem Code.ofSymbols?_symbols (code : Code) : Code.ofSymbols? code.symbols = some code := by
  rw [ofSymbols?, dif_pos code.wellFormed]

namespace Codes

theorem readCode_quoted (code : Code) (tail : List Char) :
    readCode (code.quoted ++ tail) = some (code, tail) := by
  have htake : (code.symbols ++ '"' :: tail).take codeLength = code.symbols :=
    List.take_left' code.wellFormed.1
  have hdrop : (code.symbols ++ '"' :: tail).drop codeLength = '"' :: tail :=
    List.drop_left' code.wellFormed.1
  rw [Code.quoted, List.cons_append, List.append_assoc, List.singleton_append]
  simp only [readCode, htake, hdrop, Code.ofSymbols?_symbols]

theorem readCodes_of_last {text : List Char} {code : Code}
    (h : readCode text = some (code, [']'])) : readCodes text = some [code] := by
  rw [readCodes]
  split
  next heq =>
    rw [h] at heq
    cases heq
    rfl
  next heq =>
    rw [h] at heq
    cases heq
  next hlast _ => exact absurd h (hlast code)

theorem readCodes_of_comma {text tail : List Char} {code : Code}
    (h : readCode text = some (code, ',' :: tail)) :
    readCodes text = (readCodes (tail.dropWhile (· = ' '))).map (code :: ·) := by
  rw [readCodes]
  split
  next heq =>
    rw [h] at heq
    cases heq
  next heq =>
    rw [h] at heq
    cases heq
    rfl
  next hcomma => exact absurd h (hcomma code tail)

theorem writeCodes_cons (code : Code) (rest : List Code) :
    ∃ text, writeCodes (code :: rest) = '"' :: text := by
  cases rest with
  | nil => exact ⟨_, rfl⟩
  | cons next rest => exact ⟨_, rfl⟩

theorem readCodes_writeCodes (code : Code) (rest : List Code) :
    readCodes (writeCodes (code :: rest) ++ [']']) = some (code :: rest) := by
  induction rest generalizing code with
  | nil => exact readCodes_of_last (readCode_quoted code [']'])
  | cons next rest ih =>
    have hread := readCode_quoted code (',' :: (writeCodes (next :: rest) ++ [']']))
    -- What follows the comma starts with a quote, so there is no space to skip.
    have hskip : (writeCodes (next :: rest) ++ [']']).dropWhile (· = ' ') =
        writeCodes (next :: rest) ++ [']'] := by
      obtain ⟨text, htext⟩ := writeCodes_cons next rest
      rw [htext]
      rfl
    rw [writeCodes, List.append_assoc, List.cons_append, readCodes_of_comma hread, hskip,
      ih next, Option.map_some]
    exact List.cons_ne_nil next rest

theorem parse_toJson (c : Codes) : parse (some c.toJson) = .ok c := by
  obtain ⟨codes⟩ := c
  cases codes with
  | nil => rfl
  | cons code rest =>
    have hread := readCodes_writeCodes code rest
    obtain ⟨text, htext⟩ := writeCodes_cons code rest
    rw [htext] at hread
    rw [parse, toJson, Option.getD_some, String.toList_ofList, htext]
    split
    next codes hcodes =>
      cases hcodes.symm.trans hread
      rfl
    next hnone => cases hnone.symm.trans hread

end Codes
end Scratch
end Contestant
