import Contestant.Proofs.Json.Texts
import Contestant.Proofs.Scratch.StoredText
import Contestant.Proofs.Scratch.Typed
import Mathlib.Computability.RegularExpressions

/-!
The format of stored scratch codes.

The format is given three times: as a grammar that says which codes a text lists, as a regular
expression, and by the reader.  All three agree on every text, a JSON reader that knows nothing of
the format finds the same codes, and what is written is the one text of the format without spaces.
-/

namespace Contestant
namespace Scratch

/-! ## Symbols -/

def codeSymbols : List Char := "ABCDEFGHIJKLMNOPQRSTUVWXYZ0123456789".toList

theorem isSymbol_iff_mem {c : Char} : isSymbol c = true ↔ c ∈ codeSymbols := by
  constructor
  · intro h
    have hsymbols : ∀ n < 128, isSymbol (Char.ofNat n) = true → Char.ofNat n ∈ codeSymbols := by
      decide
    have hmem := hsymbols c.toNat (lt_of_isSymbol h)
    rw [Char.ofNat_toNat] at hmem
    exact hmem h
  · have hsymbols : codeSymbols.all isSymbol = true := by decide
    exact List.all_eq_true.mp hsymbols c

/-- What has been checked for each symbol holds of a code. -/
theorem Code.forall_mem_symbols {p : Char → Bool} (h : codeSymbols.all p = true) (code : Code) :
    ∀ c ∈ code.symbols, p c = true := fun c hc =>
  List.all_eq_true.mp h c (isSymbol_iff_mem.mp (List.all_eq_true.mp code.wellFormed.2 c hc))

/-! ## The grammar -/

/-- Quoted codes up to a closing bracket, with a comma and any number of spaces between two. -/
inductive Listed : List Code → List Char → Prop
  | last (code : Code) : Listed [code] (code.quoted ++ [']'])
  | comma (code : Code) (spaces : Nat) {codes : List Code} {text : List Char}
      (h : Listed codes text) :
      Listed (code :: codes) (code.quoted ++ ',' :: (List.replicate spaces ' ' ++ text))

/-- The texts that are stored for some codes. -/
inductive Stored : List Code → List Char → Prop
  | absent : Stored [] []
  | empty : Stored [] ['[', ']']
  | listed {codes : List Code} {text : List Char} (h : Listed codes text) :
      Stored codes ('[' :: text)

theorem Listed.exists_eq_cons {codes : List Code} {text : List Char} (h : Listed codes text) :
    ∃ rest, text = '"' :: rest := by
  cases h with
  | last code => exact ⟨_, rfl⟩
  | comma code spaces h => exact ⟨_, rfl⟩

theorem Listed.ne_nil {codes : List Code} {text : List Char} (h : Listed codes text) :
    codes ≠ [] := by
  cases h with
  | last code => exact List.cons_ne_nil code []
  | comma code spaces h => exact List.cons_ne_nil code _

theorem Listed.dropWhile_spaces {codes : List Code} {text : List Char} (h : Listed codes text)
    (spaces : Nat) : (List.replicate spaces ' ' ++ text).dropWhile (· = ' ') = text := by
  obtain ⟨rest, rfl⟩ := h.exists_eq_cons
  have hspaces : ∀ c ∈ List.replicate spaces ' ', decide (c = ' ') = true := fun c hc =>
    decide_eq_true (List.eq_of_mem_replicate hc)
  rw [List.dropWhile_append_of_pos hspaces, List.dropWhile_cons_of_neg (by decide)]

theorem exists_spaces (text : List Char) :
    ∃ spaces, text = List.replicate spaces ' ' ++ text.dropWhile (· = ' ') := by
  have hspaces : ∀ c ∈ text.takeWhile (· = ' '), c = ' ' := fun c hc => by
    simpa using List.mem_takeWhile_imp hc
  refine ⟨(text.takeWhile (· = ' ')).length, ?_⟩
  rw [← List.eq_replicate_iff.mpr ⟨rfl, hspaces⟩, List.takeWhile_append_dropWhile]

/-! ## The reader -/

namespace Codes

theorem readCode_eq_some_iff {text tail : List Char} {code : Code} :
    readCode text = some (code, tail) ↔ text = code.quoted ++ tail := by
  refine ⟨fun h => ?_, fun h => h ▸ readCode_quoted code tail⟩
  unfold readCode at h
  split at h
  next rest =>
    split at h
    next found after hfound hafter =>
      cases h
      have hsymbols : rest.take codeLength = code.symbols := by
        unfold Code.ofSymbols? at hfound
        split at hfound
        next => cases hfound; rfl
        next => cases hfound
      rw [Code.quoted, List.cons_append, List.append_assoc, List.singleton_append, ← hsymbols,
        ← hafter, List.take_append_drop]
    next => cases h
  next => cases h

theorem readCodes_of_listed {codes : List Code} {text : List Char} (h : Listed codes text) :
    readCodes text = some codes := by
  induction h with
  | last code => exact readCodes_of_last (readCode_quoted code [']'])
  | comma code spaces h ih =>
    rw [readCodes_of_comma (readCode_quoted code _), h.dropWhile_spaces, ih, Option.map_some]

theorem listed_of_readCodes {codes : List Code} {text : List Char}
    (h : readCodes text = some codes) : Listed codes text := by
  fun_induction readCodes text generalizing codes with
  | case1 text code hread =>
    cases h
    rw [readCode_eq_some_iff.mp hread]
    exact .last code
  | case2 text code tail hread ih =>
    obtain ⟨rest, hrest, rfl⟩ := Option.map_eq_some_iff.mp h
    -- The reader goes on behind the spaces; the grammar wants to know how many there were.
    obtain ⟨spaces, hspaces⟩ := exists_spaces tail
    rw [readCode_eq_some_iff.mp hread, hspaces]
    exact .comma code spaces (ih hrest)
  | case3 => cases h

theorem parse_eq_ok_iff {stored : Option String} {c : Codes} :
    parse stored = .ok c ↔ Stored c.codes (stored.getD "").toList := by
  obtain ⟨codes⟩ := c
  constructor
  · intro h
    unfold parse at h
    split at h
    next htext => cases h; rw [htext]; exact .absent
    next htext => cases h; rw [htext]; exact .empty
    next rest _ htext =>
      cases hread : readCodes rest with
      | none => simp only [hread, reduceCtorEq] at h
      | some found =>
        simp only [hread, Except.ok.injEq, mk.injEq] at h
        rw [htext, ← h]
        exact .listed (listed_of_readCodes hread)
    next => cases h
  · intro h
    unfold parse
    generalize (stored.getD "").toList = text at h
    cases h with
    | absent => rfl
    | empty => rfl
    | listed h =>
      -- A list begins with a quote, so what follows the bracket is not the closing one.
      obtain ⟨rest, hrest⟩ := h.exists_eq_cons
      have hread := readCodes_of_listed h
      rw [hrest] at hread ⊢
      split
      next heq => cases heq
      next heq => exact absurd heq (by simp)
      next heq =>
        cases heq
        simp only [hread]
      next hother => exact absurd rfl (hother _)

end Codes

/-! ## The pattern -/

section Pattern

open RegularExpression Computability

/-- Any one of some characters. -/
def oneOf (symbols : List Char) : RegularExpression Char :=
  symbols.foldr (fun c others => char c + others) 0

def codePattern : RegularExpression Char :=
  char '"' * (oneOf codeSymbols ^ 16 * char '"')

def separatorPattern : RegularExpression Char := char ',' * star (char ' ')

def listPattern : RegularExpression Char :=
  star (codePattern * separatorPattern) * (codePattern * char ']')

/-- The pattern `^(\[\])?$|^\[("[A-Z0-9]{16}", *)*"[A-Z0-9]{16}"\]$`. -/
def storedPattern : RegularExpression Char :=
  (1 + char '[' * char ']') + char '[' * listPattern

theorem mem_oneOf {symbols text : List Char} :
    text ∈ (oneOf symbols).matches' ↔ ∃ c ∈ symbols, text = [c] := by
  induction symbols with
  | nil => simp [oneOf]
  | cons c symbols ih =>
    rw [show oneOf (c :: symbols) = char c + oneOf symbols from rfl, matches'_add,
      Language.mem_add, ih, matches'_char, List.exists_mem_cons_iff]
    rfl

theorem mem_oneOf_pow {symbols text : List Char} {n : Nat} :
    text ∈ (oneOf symbols ^ n).matches' ↔ text.length = n ∧ ∀ c ∈ text, c ∈ symbols := by
  rw [matches'_pow]
  induction n generalizing text with
  | zero =>
    rw [pow_zero, Language.mem_one, List.length_eq_zero_iff]
    exact ⟨fun h => ⟨h, fun c hc => by rw [h] at hc; cases hc⟩, And.left⟩
  | succ n ih =>
    rw [pow_succ', Language.mem_mul]
    constructor
    · rintro ⟨_, hfirst, rest, hrest, rfl⟩
      obtain ⟨c, hc, rfl⟩ := mem_oneOf.mp hfirst
      obtain ⟨hlength, hsymbols⟩ := ih.mp hrest
      exact ⟨congrArg (· + 1) hlength, List.forall_mem_cons.mpr ⟨hc, hsymbols⟩⟩
    · rintro ⟨hlength, hsymbols⟩
      obtain ⟨c, rest, rfl⟩ := List.exists_cons_of_length_eq_add_one hlength
      obtain ⟨hc, hrest⟩ := List.forall_mem_cons.mp hsymbols
      exact ⟨[c], mem_oneOf.mpr ⟨c, hc, rfl⟩, rest,
        ih.mpr ⟨Nat.succ.inj hlength, hrest⟩, rfl⟩

theorem mem_char_mul {c : Char} {pattern : RegularExpression Char} {text : List Char} :
    text ∈ (char c * pattern).matches' ↔ ∃ rest ∈ pattern.matches', text = c :: rest := by
  rw [matches'_mul, matches'_char, Language.mem_mul]
  constructor
  · rintro ⟨_, rfl, rest, hrest, rfl⟩
    exact ⟨rest, hrest, rfl⟩
  · rintro ⟨rest, hrest, rfl⟩
    exact ⟨[c], rfl, rest, hrest, rfl⟩

theorem mem_codePattern {text : List Char} :
    text ∈ codePattern.matches' ↔ ∃ code : Code, text = code.quoted := by
  rw [codePattern, mem_char_mul]
  constructor
  · rintro ⟨rest, hrest, rfl⟩
    rw [matches'_mul, Language.mem_mul] at hrest
    obtain ⟨symbols, hsymbols, _, rfl, rfl⟩ := hrest
    obtain ⟨hlength, hmem⟩ := mem_oneOf_pow.mp hsymbols
    exact ⟨⟨symbols, hlength, List.all_eq_true.mpr fun c hc => isSymbol_iff_mem.mpr (hmem c hc)⟩,
      rfl⟩
  · rintro ⟨⟨symbols, hlength, hall⟩, rfl⟩
    refine ⟨symbols ++ ['"'], ?_, rfl⟩
    rw [matches'_mul, Language.mem_mul]
    refine ⟨symbols, mem_oneOf_pow.mpr ⟨hlength, fun c hc => ?_⟩, ['"'], rfl, rfl⟩
    exact isSymbol_iff_mem.mp (List.all_eq_true.mp hall c hc)

theorem mem_separatorPattern {text : List Char} :
    text ∈ separatorPattern.matches' ↔ ∃ spaces, text = ',' :: List.replicate spaces ' ' := by
  rw [separatorPattern, mem_char_mul, matches'_star, matches'_char]
  constructor
  · rintro ⟨_, hrest, rfl⟩
    obtain ⟨pieces, rfl, hpieces⟩ := Language.mem_kstar.mp hrest
    refine ⟨pieces.length, congrArg (',' :: ·) ?_⟩
    rw [List.eq_replicate_iff.mpr ⟨rfl, hpieces⟩, List.flatten_replicate_singleton,
      List.length_replicate]
  · rintro ⟨spaces, rfl⟩
    have hspaces : List.replicate spaces ' ' = (List.replicate spaces [' ']).flatten :=
      List.flatten_replicate_singleton.symm
    exact ⟨_, Language.mem_kstar.mpr ⟨_, hspaces, fun _ => List.eq_of_mem_replicate⟩, rfl⟩

theorem mem_listPattern {text : List Char} :
    text ∈ listPattern.matches' ↔ ∃ codes, Listed codes text := by
  have hlast {code : Code} : code.quoted ++ [']'] ∈ (codePattern * char ']').matches' :=
    Language.append_mem_mul (mem_codePattern.mpr ⟨code, rfl⟩) rfl
  rw [listPattern, matches'_mul, matches'_star]
  constructor
  · rintro ⟨_, hfront, _, ⟨_, hcode, _, rfl, rfl⟩, rfl⟩
    obtain ⟨last, rfl⟩ := mem_codePattern.mp hcode
    obtain ⟨pieces, rfl, hpieces⟩ := Language.mem_kstar.mp hfront
    clear hfront
    -- Each piece is a code with its separator, and in front of a list it makes a longer one.
    induction pieces with
    | nil => exact ⟨[last], .last last⟩
    | cons piece pieces ih =>
      obtain ⟨⟨_, hcode', _, hseparator, rfl⟩, hrest⟩ := List.forall_mem_cons.mp hpieces
      obtain ⟨code, rfl⟩ := mem_codePattern.mp hcode'
      obtain ⟨spaces, rfl⟩ := mem_separatorPattern.mp hseparator
      obtain ⟨codes, hcodes⟩ := ih hrest
      refine ⟨code :: codes, ?_⟩
      simpa using hcodes.comma code spaces
  · rintro ⟨codes, h⟩
    induction h with
    | last code => exact ⟨[], Language.nil_mem_kstar _, _, hlast, rfl⟩
    | comma code spaces h ih =>
      obtain ⟨front, hfront, tail, htail, rfl⟩ := ih
      obtain ⟨pieces, rfl, hpieces⟩ := Language.mem_kstar.mp hfront
      have hpiece : code.quoted ++ ',' :: List.replicate spaces ' ' ∈
          (codePattern * separatorPattern).matches' :=
        Language.append_mem_mul (mem_codePattern.mpr ⟨code, rfl⟩)
          (mem_separatorPattern.mpr ⟨spaces, rfl⟩)
      refine ⟨_, Language.join_mem_kstar (List.forall_mem_cons.mpr ⟨hpiece, hpieces⟩), tail,
        htail, ?_⟩
      simp

theorem mem_storedPattern {text : List Char} :
    text ∈ storedPattern.matches' ↔ ∃ codes, Stored codes text := by
  rw [storedPattern, matches'_add, matches'_add, Language.mem_add, Language.mem_add,
    matches'_epsilon, Language.mem_one, mem_char_mul, mem_char_mul]
  constructor
  · rintro ((rfl | ⟨_, rfl, rfl⟩) | ⟨rest, hrest, rfl⟩)
    · exact ⟨[], .absent⟩
    · exact ⟨[], .empty⟩
    · obtain ⟨codes, h⟩ := mem_listPattern.mp hrest
      exact ⟨codes, .listed h⟩
  · rintro ⟨codes, h⟩
    cases h with
    | absent => exact .inl (.inl rfl)
    | empty => exact .inl (.inr ⟨_, rfl, rfl⟩)
    | listed h => exact .inr ⟨_, mem_listPattern.mpr ⟨codes, h⟩, rfl⟩

end Pattern

/-! ## The codes as JSON -/

section Json

open JsonByte JsonSource

theorem isPlain_encode (code : Code) : ∀ b ∈ Utf8.encode code.symbols, isPlain b = true := by
  have hplain : codeSymbols.all (fun c => (String.utf8EncodeChar c).all isPlain) = true := by
    decide
  intro b hb
  obtain ⟨c, hc, hb⟩ := List.mem_flatMap.mp hb
  exact List.all_eq_true.mp (code.forall_mem_symbols hplain c hc) b hb

namespace Code

/-- The JSON value of a code. -/
def source (code : Code) : JsonSource := plain (Utf8.encode code.symbols)

theorem asText?_source (code : Code) : asText? code.source = some code.text :=
  asText?_plain code.symbols

theorem scanWith_quoted (fuel : Nat) (code : Code) (tail : List Char) :
    scanWith (fuel + 1) (Utf8.encode (code.quoted ++ tail)) =
      some (code.source, Utf8.encode tail) := by
  have hquoted : Utf8.encode (code.quoted ++ tail) =
      quote :: (Utf8.encode code.symbols ++ quote :: Utf8.encode tail) := by
    rw [show code.quoted ++ tail = ['"'] ++ (code.symbols ++ (['"'] ++ tail)) by simp [quoted],
      Utf8.encode_append, Utf8.encode_append, Utf8.encode_append]
    rfl
  rw [hquoted, scanWith_plain fuel (isPlain_encode code)]
  rfl

end Code

theorem skipBlank_spaces (spaces : Nat) (text : List Char) :
    skipBlank (Utf8.encode (List.replicate spaces ' ' ++ text)) =
      skipBlank (Utf8.encode text) := by
  induction spaces with
  | zero => rfl
  | succ spaces ih => exact ih

theorem Listed.scanItems_encode {codes : List Code} {text : List Char} (h : Listed codes text)
    {fuel : Nat} (hfuel : codes.length < fuel) :
    scanItems fuel (Utf8.encode text) = some (codes.map Code.source, []) := by
  -- An item takes one unit of fuel for itself, and its text needs another one at that time.
  induction h generalizing fuel with
  | last code =>
    obtain ⟨fuel, rfl⟩ : ∃ more, fuel = more + 2 := Nat.exists_eq_add_of_le' hfuel
    exact scanItems_last (code.scanWith_quoted fuel [']'])
  | @comma code spaces codes text h ih =>
    rw [List.length_cons] at hfuel
    obtain ⟨fuel, rfl⟩ : ∃ more, fuel = more + 2 := Nat.exists_eq_add_of_le' (by omega)
    have hitems : scanItems (fuel + 1) (Utf8.encode (List.replicate spaces ' ' ++ text)) =
        some (codes.map Code.source, []) := by
      rw [scanItems_congr (skipBlank_spaces spaces text), ih (by omega)]
    exact scanItems_comma (code.scanWith_quoted fuel _) hitems

theorem Listed.length_le {codes : List Code} {text : List Char} (h : Listed codes text) :
    codes.length ≤ text.length := by
  induction h with
  | last code => simp
  | comma code spaces h ih =>
    simp only [List.length_append, List.length_cons]
    omega

/-- A JSON reader finds the codes of every text that is stored for them. -/
theorem Stored.readTexts? {codes : List Code} {text : List Char} (h : Stored codes text)
    (hne : text ≠ []) :
    JsonSource.readTexts? (Utf8.encode text) = some (codes.map Code.text) := by
  cases h with
  | absent => exact absurd rfl hne
  | empty => rfl
  | listed h =>
    obtain ⟨rest, rfl⟩ := h.exists_eq_cons
    have hlength : codes.length ≤ Utf8.size ('"' :: rest) :=
      h.length_le.trans (Utf8.length_le_size _)
    have hfuel : codes.length < 2 * Utf8.size ('"' :: rest) + 3 := by omega
    have hitems := h.scanItems_encode hfuel
    have hscan : scan (Utf8.encode ('[' :: '"' :: rest)) =
        some (list (codes.map Code.source), []) :=
      scan_list (by decide : isBlank quote = false) (by decide) hitems
    rw [readTexts?_of_scan hscan, Text.mapM_map_eq_some fun code _ => code.asText?_source]

theorem Code.quote_text (code : Code) : JsonValue.quote code.text = code.quoted := by
  have hescape : codeSymbols.all (fun c => JsonValue.escapeChar c = [c]) = true := by decide
  have hsymbols : code.text.toList = code.symbols := String.toList_ofList
  rw [JsonValue.quote_of_unescaped, hsymbols, quoted]
  rw [hsymbols]
  exact fun c hc => of_decide_eq_true (code.forall_mem_symbols hescape c hc)

theorem Codes.writeItems_texts (codes : List Code) :
    JsonValue.writeItems ((codes.map Code.text).map .text) = writeCodes codes := by
  induction codes with
  | nil => rfl
  | cons code rest ih =>
    cases rest with
    | nil => exact code.quote_text
    | cons next rest =>
      change JsonValue.quote code.text ++
        ',' :: JsonValue.writeItems (((next :: rest).map Code.text).map .text) = _
      rw [code.quote_text, ih]
      rfl

/-- The stored text is the JSON of the codes. -/
theorem Codes.toJson_eq (c : Codes) : c.toJson = (JsonValue.ofTexts c.texts).toText := by
  change _ = String.ofList ('[' :: (JsonValue.writeItems (c.texts.map .text) ++ [']']))
  rw [texts, writeItems_texts, toJson]

end Json

/-! ## Writing -/

/-- A text without the spaces that follow its commas; the flag says that nothing but spaces has
followed a comma so far. -/
def closeUp : Bool → List Char → List Char
  | _, [] => []
  | skipping, c :: rest =>
    if skipping && c = ' ' then closeUp true rest else c :: closeUp (c = ',') rest

theorem closeUp_append {piece : List Char} (h : ∀ c ∈ piece, c ≠ ',' ∧ c ≠ ' ')
    (hne : piece ≠ []) (skipping : Bool) (rest : List Char) :
    closeUp skipping (piece ++ rest) = piece ++ closeUp false rest := by
  induction piece generalizing skipping with
  | nil => exact absurd rfl hne
  | cons c piece ih =>
    obtain ⟨⟨hcomma, hspace⟩, hpiece⟩ := List.forall_mem_cons.mp h
    simp only [List.cons_append, closeUp, hspace, hcomma, decide_false, Bool.and_false,
      Bool.false_eq_true, if_false]
    cases piece with
    | nil => rfl
    | cons d piece => rw [ih hpiece (List.cons_ne_nil d piece)]

theorem closeUp_spaces (spaces : Nat) (rest : List Char) :
    closeUp true (List.replicate spaces ' ' ++ rest) = closeUp true rest := by
  induction spaces with
  | zero => rfl
  | succ spaces ih => exact ih

theorem Code.forall_mem_quoted (code : Code) : ∀ c ∈ code.quoted, c ≠ ',' ∧ c ≠ ' ' := by
  have hsymbols : codeSymbols.all (fun c => c ≠ ',' ∧ c ≠ ' ') = true := by decide
  intro c hc
  rw [quoted, List.mem_cons, List.mem_append, List.mem_singleton] at hc
  rcases hc with rfl | hsymbol | rfl
  · decide
  · exact of_decide_eq_true (code.forall_mem_symbols hsymbols c hsymbol)
  · decide

theorem Listed.closeUp {codes : List Code} {text : List Char} (h : Listed codes text)
    (skipping : Bool) :
    Scratch.closeUp skipping text = Codes.writeCodes codes ++ [']'] := by
  induction h generalizing skipping with
  | last code =>
    rw [closeUp_append code.forall_mem_quoted (List.cons_ne_nil _ _)]
    rfl
  | @comma code spaces codes text h ih =>
    have hcomma : Scratch.closeUp false (',' :: (List.replicate spaces ' ' ++ text)) =
        ',' :: Scratch.closeUp true (List.replicate spaces ' ' ++ text) := rfl
    obtain ⟨next, rest, rfl⟩ := List.exists_cons_of_ne_nil h.ne_nil
    rw [closeUp_append code.forall_mem_quoted (List.cons_ne_nil _ _), hcomma, closeUp_spaces, ih]
    simp [Codes.writeCodes]

namespace Codes

/-- What is written for the codes of a stored text. -/
theorem toJson_of_stored {c : Codes} {text : List Char} (h : Stored c.codes text) :
    c.toJson.toList = if text = [] then "[]".toList else closeUp false text := by
  rw [toJson, String.toList_ofList]
  obtain ⟨codes⟩ := c
  cases h with
  | absent => rfl
  | empty => rfl
  | listed h =>
    rw [if_neg (List.cons_ne_nil _ _), ← h.closeUp false]
    rfl

/-- The three descriptions of the format agree on every text, and so does a JSON reader; what is
written reads back, and a stored text is written again without its spaces. -/
theorem stored_format_agrees (stored : Option String) :
    let text := (stored.getD "").toList
    ((∃ c, parse stored = .ok c) ↔ text ∈ storedPattern.matches') ∧
    (∀ c, parse stored = .ok c ↔ Stored c.codes text) ∧
    (text ∈ storedPattern.matches' → text ≠ [] →
      ∃ c, parse stored = .ok c ∧ JsonSource.readTexts? (Utf8.encode text) = some c.texts) ∧
    (∀ c, parse stored = .ok c →
      c.toJson.toList = if text = [] then "[]".toList else closeUp false text) ∧
    ∀ c : Codes, c.toJson = (JsonValue.ofTexts c.texts).toText ∧ parse (some c.toJson) = .ok c := by
  intro text
  have hread : text ∈ storedPattern.matches' → ∃ c, parse stored = .ok c := fun h => by
    obtain ⟨codes, hcodes⟩ := mem_storedPattern.mp h
    exact ⟨⟨codes⟩, parse_eq_ok_iff.mpr hcodes⟩
  refine ⟨⟨fun ⟨c, hc⟩ => ?_, hread⟩, fun c => parse_eq_ok_iff, fun hmatch hne => ?_,
    fun c hc => ?_, fun c => ⟨c.toJson_eq, parse_toJson c⟩⟩
  · exact mem_storedPattern.mpr ⟨c.codes, parse_eq_ok_iff.mp hc⟩
  · obtain ⟨c, hc⟩ := hread hmatch
    exact ⟨c, hc, (parse_eq_ok_iff.mp hc).readTexts? hne⟩
  · exact toJson_of_stored (parse_eq_ok_iff.mp hc)

end Codes
end Scratch
end Contestant
