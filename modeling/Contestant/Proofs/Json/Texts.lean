import Contestant.Json.Source
import Contestant.Json.Value
import Contestant.Proofs.Text.Split
import Contestant.Proofs.Text.Utf8
import Mathlib.Data.List.TakeWhile

/-!
JSON lists of texts: the reader, and how texts without escapes are read and written.
-/

namespace Contestant

namespace TextUnit

/-- Units that add a text to whatever units follow. -/
def Spells (units : List TextUnit) (text : List Char) : Prop :=
  ∀ more, join (units ++ more) = (join more).map (Utf8.encode text ++ ·)

theorem join_bytes (bytes : List UInt8) (more : List TextUnit) :
    join (bytes.map .byte ++ more) = (join more).map (bytes ++ ·) := by
  induction bytes with
  | nil =>
    show join more = (join more).map id
    rw [Option.map_id, id]
  | cons b bytes ih =>
    rw [List.map_cons, List.cons_append, join, ih, Option.map_map]
    rfl

theorem spells_bytes (text : List Char) : Spells ((Utf8.encode text).map .byte) text :=
  join_bytes (Utf8.encode text)

theorem Spells.append {units units' : List TextUnit} {text text' : List Char}
    (h : Spells units text) (h' : Spells units' text') :
    Spells (units ++ units') (text ++ text') := by
  intro more
  rw [List.append_assoc, h, h', Option.map_map, Utf8.encode_append]
  congr 1
  funext bytes
  exact (List.append_assoc ..).symm

theorem Spells.toString? {units : List TextUnit} {text : List Char} (h : Spells units text) :
    toString? units = some (String.ofList text) := by
  have hjoin : join units = some (Utf8.encode text) := by
    rw [← List.append_nil units, h]
    show some (Utf8.encode text ++ []) = _
    rw [List.append_nil]
  rw [TextUnit.toString?, hjoin, Option.bind_some, Utf8.decode?_encode, Option.map_some]

theorem toString?_encode (text : List Char) :
    toString? ((Utf8.encode text).map .byte) = some (String.ofList text) :=
  (spells_bytes text).toString?

end TextUnit

namespace JsonSource

open JsonByte

/-- The texts of a document that is a list of texts and nothing else. -/
def readTexts? (document : List UInt8) : Option (List String) :=
  match scan document with
  | some (list items, rest) => if (skipBlank rest).isEmpty then items.mapM asText? else none
  | _ => none

/-- A byte that stands for itself between quotes. -/
def isPlain (b : UInt8) : Bool := b ≠ quote && b ≠ backslash && !isControl b

/-- The value of a text without escapes. -/
def plain (bytes : List UInt8) : JsonSource := .text (bytes.map .byte)

theorem asText?_plain (text : List Char) :
    asText? (plain (Utf8.encode text)) = some (String.ofList text) :=
  TextUnit.toString?_encode text

/-! ## Scanning -/

theorem skipBlank_of_not_blank {b : UInt8} (h : isBlank b = false) (rest : List UInt8) :
    skipBlank (b :: rest) = b :: rest :=
  List.dropWhile_cons_of_neg (Bool.not_eq_true _ ▸ h)

theorem skipTo_cons {b : UInt8} (h : isBlank b = false) (rest : List UInt8) :
    skipTo b (b :: rest) = some rest := by
  rw [skipTo, skipBlank_of_not_blank h, expect, if_pos rfl]

theorem skipTo_of_ne {b expected : UInt8} (h : isBlank b = false) (hne : b ≠ expected)
    (rest : List UInt8) : skipTo expected (b :: rest) = none := by
  rw [skipTo, skipBlank_of_not_blank h, expect, if_neg hne]

/-- Bytes from which the scanner of texts takes some units before it goes on. -/
def Yields (bytes : List UInt8) (units : List TextUnit) : Prop :=
  ∀ rest, scanText (bytes ++ rest) = (scanText rest).map fun (more, rest) => (units ++ more, rest)

theorem Yields.append {bytes bytes' : List UInt8} {units units' : List TextUnit}
    (h : Yields bytes units) (h' : Yields bytes' units') :
    Yields (bytes ++ bytes') (units ++ units') := by
  intro rest
  rw [List.append_assoc, h, h', Option.map_map]
  congr 1
  funext ⟨more, rest⟩
  show (units ++ (units' ++ more), rest) = (units ++ units' ++ more, rest)
  rw [List.append_assoc]

theorem Yields.scanText {bytes : List UInt8} {units : List TextUnit} (h : Yields bytes units)
    (rest : List UInt8) : scanText (bytes ++ quote :: rest) = some (units, rest) := by
  rw [h, scanText.eq_def]
  show some (units ++ [], rest) = _
  rw [List.append_nil]

theorem yields_nil : Yields [] [] := by
  intro rest
  rw [List.nil_append]
  cases scanText rest <;> rfl

theorem yields_plain {bytes : List UInt8} (h : ∀ b ∈ bytes, isPlain b = true) :
    Yields bytes (bytes.map .byte) := by
  induction bytes with
  | nil => exact yields_nil
  | cons b bytes ih =>
    obtain ⟨hb, hbytes⟩ := List.forall_mem_cons.mp h
    simp only [isPlain, Bool.and_eq_true, decide_eq_true_eq, Bool.not_eq_true'] at hb
    obtain ⟨⟨hquote, hbackslash⟩, hcontrol⟩ := hb
    have hone : Yields [b] [.byte b] := by
      intro rest
      rw [List.singleton_append, scanText.eq_def]
      simp only [if_neg hquote, if_neg hbackslash, hcontrol, Bool.false_eq_true, if_false]
      rfl
    exact hone.append (ih hbytes)

theorem scanText_plain {bytes : List UInt8} (h : ∀ b ∈ bytes, isPlain b = true)
    (rest : List UInt8) :
    scanText (bytes ++ quote :: rest) = some (bytes.map .byte, rest) :=
  (yields_plain h).scanText rest

/-- A value may have any blanks before it. -/
theorem scanWith_congr {fuel : Nat} {a b : List UInt8} (h : skipBlank a = skipBlank b) :
    scanWith fuel a = scanWith fuel b := by
  cases fuel with
  | zero => rfl
  | succ fuel => rw [scanWith, scanWith, h]

theorem scanItems_congr {fuel : Nat} {a b : List UInt8} (h : skipBlank a = skipBlank b) :
    scanItems fuel a = scanItems fuel b := by
  cases fuel with
  | zero => rfl
  | succ fuel => rw [scanItems, scanItems, scanWith_congr h]

theorem scanWith_plain (fuel : Nat) {bytes : List UInt8} (h : ∀ b ∈ bytes, isPlain b = true)
    (rest : List UInt8) :
    scanWith (fuel + 1) (quote :: (bytes ++ quote :: rest)) = some (plain bytes, rest) := by
  rw [scanWith, skipBlank_of_not_blank (by decide)]
  simp only [if_true, scanText_plain h, Option.map_some, plain]

theorem scanItems_last {fuel : Nat} {input rest : List UInt8} {item : JsonSource}
    (h : scanWith fuel input = some (item, closeBracket :: rest)) :
    scanItems (fuel + 1) input = some ([item], rest) := by
  simp only [scanItems, h, Option.bind_eq_bind, Option.bind_some,
    skipTo_of_ne (by decide : isBlank closeBracket = false) (by decide : closeBracket ≠ comma),
    skipTo_cons (by decide : isBlank closeBracket = false), Option.map_some]

theorem scanItems_comma {fuel : Nat} {input next rest : List UInt8} {item : JsonSource}
    {items : List JsonSource} (h : scanWith fuel input = some (item, comma :: next))
    (hitems : scanItems fuel next = some (items, rest)) :
    scanItems (fuel + 1) input = some (item :: items, rest) := by
  simp only [scanItems, h, Option.bind_eq_bind, Option.bind_some,
    skipTo_cons (by decide : isBlank comma = false), hitems, Option.pure_def]

/-- A whole document that is a list with at least one item. -/
theorem scan_list {first : UInt8} {more : List UInt8} {items : List JsonSource}
    (hblank : isBlank first = false) (hclose : first ≠ closeBracket)
    (h : scanItems (2 * (first :: more).length + 3) (first :: more) = some (items, [])) :
    scan (openBracket :: first :: more) = some (list items, []) := by
  have hfuel : 2 * (openBracket :: first :: more).length + 2 =
      2 * (first :: more).length + 3 + 1 := by
    simp only [List.length_cons]
    omega
  rw [scan, hfuel, scanWith, skipBlank_of_not_blank (by decide)]
  simp only [if_neg (by decide : openBracket ≠ quote), if_true, skipTo_of_ne hblank hclose, h,
    Option.map_some]

theorem readTexts?_of_scan {document : List UInt8} {items : List JsonSource}
    (h : scan document = some (list items, [])) :
    readTexts? document = items.mapM asText? := by
  rw [readTexts?, h]
  rfl

end JsonSource

/-! ## Writing -/

namespace JsonValue

theorem quote_of_unescaped {text : String} (h : ∀ c ∈ text.toList, escapeChar c = [c]) :
    quote text = '"' :: (text.toList ++ ['"']) := by
  have hbody : text.toList.flatMap escapeChar = text.toList :=
    (List.flatMap_congr h).trans (List.flatMap_singleton' _)
  rw [quote, hbody]

end JsonValue
end Contestant
