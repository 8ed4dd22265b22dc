import Contestant.Proofs.Text.Radix
import Contestant.Proofs.Text.Split
import Contestant.Proofs.Url.Percent
import Contestant.Url.Path

/-!
What a path shows of the text that it was set from.

A path is set without a look at what the text may already mean in a path: tabs and line ends are
dropped, an escape in the text stays and is undone by whoever reads the path, and dot segments are
resolved.  Each of these makes the path show fewer bytes than the text has, and there is nothing
else that a path does to a text: `decode_path_iff`.
-/

namespace Contestant
namespace Url

open Percent

/-- A text that a path shows as it is. -/
structure Plain (text : List Char) : Prop where
  kept : ∀ c ∈ text, isDropped c = false
  unescaped : ¬ HasEscape text
  undotted : ∀ segment ∈ Text.parts '/' text, segment ≠ ['.'] ∧ segment ≠ ['.', '.']

/-! ## Characters -/

theorem toNat_of_range {low high c : Char} {first : Nat}
    (h : (Alphabet.range low high first c).isSome = true) :
    low.toNat ≤ c.toNat ∧ c.toNat ≤ high.toNat := by
  obtain ⟨n, hn⟩ := Option.isSome_iff_exists.mp h
  obtain ⟨hlow, hhigh, -⟩ := Alphabet.range_eq_some_iff.mp hn
  exact ⟨hlow, hhigh⟩

theorem isPathChar_iff {c : Char} : isPathChar c = true ↔
    33 ≤ c.toNat ∧ c.toNat ≤ 126 ∧ c ∉ "\"#<>?`\x7b\x7d".toList := by
  simp only [isPathChar, Bool.and_eq_true, decide_eq_true_eq, Bool.not_eq_true',
    List.contains_eq_mem, decide_eq_false_iff_not, and_assoc]
  rfl

theorem isPathChar_of_isHex {c : Char} (h : isHex c = true) : isPathChar c = true := by
  simp only [isHex, hexValue?, Option.isSome_or, Bool.or_eq_true] at h
  have hc : (48 ≤ c.toNat ∧ c.toNat ≤ 57) ∨ (65 ≤ c.toNat ∧ c.toNat ≤ 70) ∨
      (97 ≤ c.toNat ∧ c.toNat ≤ 102) :=
    h.imp toNat_of_range fun h => h.imp toNat_of_range toNat_of_range
  have hmarks : "\"#<>?`\x7b\x7d".toList.all (fun mark => mark.toNat < 48 ∨
      (57 < mark.toNat ∧ mark.toNat < 65) ∨ (70 < mark.toNat ∧ mark.toNat < 97) ∨
        102 < mark.toNat) = true := by decide
  refine isPathChar_iff.mpr ⟨by omega, by omega, fun hmem => ?_⟩
  have hmark := of_decide_eq_true (List.all_eq_true.mp hmarks c hmem)
  omega

theorem toLower_cases (c : Char) :
    c.toLower = c ∨ 65 ≤ c.toNat ∧ c.toLower.toNat = c.toNat + 32 := by
  unfold Char.toLower
  split
  next h =>
    right
    simp only [ge_iff_le, UInt32.le_iff_toNat_le] at h
    change 65 ≤ c.toNat ∧ c.toNat ≤ 90 at h
    refine ⟨h.1, ?_⟩
    change (c.val + 32).toNat = c.toNat + 32
    rw [UInt32.toNat_add]
    change (c.toNat + 32) % 2 ^ 32 = c.toNat + 32
    omega
  next => exact .inl rfl

/-- A character that is no lower-case letter is its own lower case and no other's. -/
theorem eq_of_toLower_eq {c d : Char} (h : c.toLower = d) (hd : d.toNat < 97) : c = d := by
  rcases toLower_cases c with hc | ⟨hupper, hc⟩
  · exact hc.symm.trans h
  · rw [h] at hc
    omega

theorem eq_or_eq_of_toLower_eq_e {c : Char} (h : c.toLower = 'e') : c = 'e' ∨ c = 'E' := by
  rcases toLower_cases c with hc | ⟨hupper, hc⟩
  · exact .inl (hc.symm.trans h)
  · rw [h] at hc
    change 101 = c.toNat + 32 at hc
    have hnat : c.toNat = 69 := by omega
    exact .inr (Char.toNat_inj.mp hnat)

/-! ## Dot segments -/

theorem isSingleDot_iff {segment : List Char} : isSingleDot segment = true ↔
    segment.map Char.toLower = ['.'] ∨ segment.map Char.toLower = ['%', '2', 'e'] := by
  simp only [isSingleDot, List.contains_eq_mem, decide_eq_true_eq, List.mem_cons,
    List.not_mem_nil, or_false]
  exact or_congr String.ofList_inj String.ofList_inj

/-- A double dot is two single ones. -/
theorem exists_of_isDoubleDot {segment : List Char} (h : isDoubleDot segment = true) :
    ∃ first second, segment = first ++ second ∧ isSingleDot first = true ∧
      isSingleDot second = true := by
  simp only [isDoubleDot, List.contains_eq_mem, decide_eq_true_eq, List.mem_cons,
    List.not_mem_nil, or_false] at h
  have hsplit : ∃ a b, segment.map Char.toLower = a ++ b ∧
      (a = ['.'] ∨ a = ['%', '2', 'e']) ∧ (b = ['.'] ∨ b = ['%', '2', 'e']) := by
    rcases h with h | h | h | h
    · exact ⟨['.'], ['.'], String.ofList_inj.mp h, .inl rfl, .inl rfl⟩
    · exact ⟨['.'], ['%', '2', 'e'], String.ofList_inj.mp h, .inl rfl, .inr rfl⟩
    · exact ⟨['%', '2', 'e'], ['.'], String.ofList_inj.mp h, .inr rfl, .inl rfl⟩
    · exact ⟨['%', '2', 'e'], ['%', '2', 'e'], String.ofList_inj.mp h, .inr rfl, .inr rfl⟩
  obtain ⟨a, b, hsegment, ha, hb⟩ := hsplit
  obtain ⟨first, second, rfl, rfl, rfl⟩ := List.map_eq_append_iff.mp hsegment
  exact ⟨first, second, rfl, isSingleDot_iff.mpr ha, isSingleDot_iff.mpr hb⟩

theorem decode_dot {dot : List Char} (h : isSingleDot dot = true) (rest : List Char) :
    decode (dot ++ rest) = String.utf8EncodeChar '.' ++ decode rest := by
  rcases isSingleDot_iff.mp h with hdot | hdot
  · simp only [List.map_eq_singleton_iff] at hdot
    obtain ⟨c, rfl, hc⟩ := hdot
    rw [eq_of_toLower_eq hc (by decide)]
    exact decode_cons (startsEscape_of_ne (by decide) rest)
  · simp only [List.map_eq_cons_iff, List.map_eq_nil_iff] at hdot
    obtain ⟨sign, _, rfl, hsign, high, _, rfl, hhigh, low, _, rfl, hlow, rfl⟩ := hdot
    rw [eq_of_toLower_eq hsign (by decide), eq_of_toLower_eq hhigh (by decide)]
    rcases eq_or_eq_of_toLower_eq_e hlow with rfl | rfl
    · exact decode_escaped (by decide) rest
    · exact decode_escaped (by decide) rest

theorem decode_of_isSingleDot {segment : List Char} (h : isSingleDot segment = true) :
    decode segment = Utf8.encode ['.'] := by
  have hdecode := decode_dot h []
  rwa [List.append_nil] at hdecode

theorem decode_of_isDoubleDot {segment : List Char} (h : isDoubleDot segment = true) :
    decode segment = Utf8.encode ['.', '.'] := by
  obtain ⟨first, second, rfl, hfirst, hsecond⟩ := exists_of_isDoubleDot h
  rw [decode_dot hfirst, decode_of_isSingleDot hsecond]
  rfl

/-! ## What segments show -/

/-- The bytes that segments show, with a slash before each of them. -/
def shown (segments : List (List Char)) : List UInt8 :=
  segments.flatMap fun segment => String.utf8EncodeChar '/' ++ decode segment

theorem shown_cons (segment : List Char) (rest : List (List Char)) :
    shown (segment :: rest) = String.utf8EncodeChar '/' ++ decode segment ++ shown rest :=
  List.flatMap_cons

theorem decode_slash (text : List Char) :
    decode ('/' :: text) = String.utf8EncodeChar '/' ++ decode text :=
  decode_cons (startsEscape_of_ne (by decide) text)

theorem decode_flatMap_slash (segments : List (List Char)) :
    decode (segments.flatMap ('/' :: ·)) = shown segments := by
  induction segments with
  | nil => rfl
  | cons segment rest ih =>
    rw [List.flatMap_cons, List.cons_append, decode_slash, shown_cons, List.append_assoc, ← ih]
    cases rest with
    | nil => simp only [List.flatMap_nil, List.append_nil, decode]
    | cons next rest =>
      rw [List.flatMap_cons, List.cons_append, decode_append (by decide)]

theorem length_shown_reverse (segments : List (List Char)) :
    (shown segments.reverse).length = (shown segments).length :=
  ((List.reverse_perm segments).flatMap_right _).length_eq

theorem length_shown_shorten (done : List (List Char)) :
    (shown (shorten done)).length ≤ (shown done).length := by
  cases done with
  | nil => exact Nat.le_refl _
  | cons last more =>
    rw [shorten]
    split
    · exact Nat.le_refl _
    · rw [shown_cons, List.length_append]
      exact Nat.le_add_left _ _

theorem length_shown_cons (segment : List Char) (rest : List (List Char)) :
    (shown (segment :: rest)).length = 1 + (decode segment).length + (shown rest).length := by
  rw [shown_cons, List.length_append, List.length_append]
  rfl

def isDot (segment : List Char) : Bool := isSingleDot segment || isDoubleDot segment

/-- Every dot segment takes at least one byte with it. -/
theorem length_shown_resolve (done segments : List (List Char)) :
    (shown (resolve done segments)).length + segments.countP isDot ≤
      (shown done).length + (shown segments).length := by
  -- A double dot may also take the last completed segment away, but `shorten` never adds to it.
  fun_induction resolve done segments with
  | case1 done => rw [length_shown_reverse]; exact Nat.le_refl _
  | case2 done last hdouble =>
    have hshorten := length_shown_shorten done
    have hdecode := congrArg List.length (decode_of_isDoubleDot hdouble)
    change (decode last).length = 2 at hdecode
    rw [length_shown_reverse, length_shown_cons, length_shown_cons, List.countP_singleton]
    simp only [isDot, hdouble, Bool.or_true, if_true, decode, List.length_nil]
    omega
  | case3 done last hdouble hsingle =>
    have hdecode := congrArg List.length (decode_of_isSingleDot hsingle)
    change (decode last).length = 1 at hdecode
    rw [length_shown_reverse, length_shown_cons, length_shown_cons, List.countP_singleton]
    simp only [isDot, hsingle, Bool.true_or, if_true, decode, List.length_nil]
    omega
  | case4 done last hdouble hsingle =>
    rw [length_shown_reverse, length_shown_cons, length_shown_cons, List.countP_singleton]
    simp only [isDot, hsingle, hdouble, Bool.or_false, Bool.false_eq_true, if_false]
    omega
  | case5 done segment rest hrest hdouble ih =>
    have hshorten := length_shown_shorten done
    have hdecode := congrArg List.length (decode_of_isDoubleDot hdouble)
    change (decode segment).length = 2 at hdecode
    rw [length_shown_cons, List.countP_cons]
    simp only [isDot, hdouble, Bool.or_true, if_true]
    omega
  | case6 done segment rest hrest hdouble hsingle ih =>
    have hdecode := congrArg List.length (decode_of_isSingleDot hsingle)
    change (decode segment).length = 1 at hdecode
    rw [length_shown_cons, List.countP_cons]
    simp only [isDot, hsingle, Bool.true_or, if_true]
    omega
  | case7 done segment rest hrest hdouble hsingle ih =>
    rw [length_shown_cons] at ih ⊢
    rw [List.countP_cons]
    simp only [isDot, hsingle, hdouble, Bool.or_false, Bool.false_eq_true, if_false]
    omega

/-- Without dot segments there is nothing to resolve. -/
theorem resolve_eq (done : List (List Char)) {segments : List (List Char)}
    (h : ∀ segment ∈ segments, isDot segment = false) :
    resolve done segments = done.reverse ++ segments := by
  induction segments generalizing done with
  | nil => rw [resolve, List.append_nil]
  | cons segment rest ih =>
    obtain ⟨hsegment, hrest⟩ := List.forall_mem_cons.mp h
    simp only [isDot, Bool.or_eq_false_iff] at hsegment
    cases rest with
    | nil =>
      simp only [resolve, hsegment.1, hsegment.2, Bool.false_eq_true, if_false,
        List.reverse_cons]
    | cons next rest =>
      rw [resolve, if_neg (Bool.eq_false_iff.mp hsegment.2),
        if_neg (Bool.eq_false_iff.mp hsegment.1), ih _ hrest, List.reverse_cons,
        List.append_assoc, List.singleton_append]
      exact List.cons_ne_nil next rest

/-! ## The whole path -/

/-- A text is cut at its slashes before or after it is encoded. -/
theorem parts_encode (text : List Char) : Text.parts '/' (encode isPathChar text) =
    (Text.parts '/' text).map (encode isPathChar) := by
  induction text with
  | nil => rfl
  | cons c text ih =>
    by_cases hc : c = '/'
    · subst hc
      rw [encode_cons_of_keep (by decide), Text.parts_cons_separator, Text.parts_cons_separator,
        ih]
      rfl
    · have hfront : '/' ∉ encode isPathChar [c] := by
        intro hmem
        cases hkeep : isPathChar c with
        | true =>
          rw [encode_cons_of_keep hkeep] at hmem
          exact hc (List.mem_singleton.mp hmem).symm
        | false =>
          rw [encode_cons_of_not_keep hkeep, show encode isPathChar [] = [] from rfl,
            List.append_nil] at hmem
          exact forall_mem_escapes (p := (· ≠ '/')) (by decide) (by decide) _ _ hmem rfl
      have hsplit : encode isPathChar (c :: text) =
          encode isPathChar [c] ++ encode isPathChar text := by
        simp only [encode, List.flatMap_cons, List.flatMap_nil, List.append_nil]
      have hslash : '/' ∉ [c] := by simpa using Ne.symm hc
      have hcons : Text.parts '/' (c :: text) = (Text.parts '/' text).modifyHead ([c] ++ ·) :=
        Text.parts_append_part hslash text
      rw [hsplit, Text.parts_append_part hfront, ih, hcons]
      cases Text.parts '/' text with
      | nil => rfl
      | cons first more =>
        simp only [List.map_cons, List.modifyHead_cons, encode, List.flatMap_append]

theorem decode_path (text : List Char) : decode (path text) =
    shown (resolve [] (Text.parts '/' (encode isPathChar (text.filter (!isDropped ·))))) :=
  decode_flatMap_slash _

theorem shown_parts (text : List Char) :
    shown (Text.parts '/' (encode isPathChar text)) =
      String.utf8EncodeChar '/' ++ decode text := by
  rw [← decode_flatMap_slash, Text.flatMap_parts, decode_slash,
    decode_encode_of_keep (by decide) fun _ => isPathChar_of_isHex]

theorem filter_eq_self {text : List Char} (h : ∀ c ∈ text, isDropped c = false) :
    text.filter (!isDropped ·) = text :=
  List.filter_eq_self.mpr fun c hc => by rw [h c hc]; rfl

/-- A segment that shows a dot segment and has no escape is that dot segment. -/
theorem Plain.isDot_eq_false {text segment : List Char} (h : Plain text)
    (hsegment : segment ∈ Text.parts '/' text) : isDot (encode isPathChar segment) = false := by
  have hescape : ¬ HasEscape segment := fun hescape =>
    h.unescaped (hescape.of_infix (Text.infix_of_mem_parts hsegment))
  have hdecode : decode (encode isPathChar segment) = Utf8.encode segment := by
    rw [decode_encode_of_keep (by decide) fun _ => isPathChar_of_isHex,
      decode_of_not_hasEscape hescape]
  obtain ⟨hsingle, hdouble⟩ := h.undotted segment hsegment
  rw [isDot, Bool.or_eq_false_iff, Bool.eq_false_iff, Bool.eq_false_iff]
  refine ⟨fun hdot => hsingle ?_, fun hdot => hdouble ?_⟩
  · exact Utf8.encode_inj.mp (hdecode.symm.trans (decode_of_isSingleDot hdot))
  · exact Utf8.encode_inj.mp (hdecode.symm.trans (decode_of_isDoubleDot hdot))

theorem decode_path_of_plain {text : List Char} (h : Plain text) :
    decode (path text) = Utf8.encode ('/' :: text) := by
  have hdots : ∀ segment ∈ Text.parts '/' (encode isPathChar text), isDot segment = false := by
    intro segment hsegment
    rw [parts_encode] at hsegment
    obtain ⟨literal, hliteral, rfl⟩ := List.mem_map.mp hsegment
    exact h.isDot_eq_false hliteral
  rw [decode_path, filter_eq_self h.kept, resolve_eq [] hdots, List.reverse_nil,
    List.nil_append, shown_parts, decode_of_not_hasEscape h.unescaped]
  rfl

theorem length_decode_path (text : List Char) :
    (decode (path text)).length +
        (Text.parts '/' (encode isPathChar (text.filter (!isDropped ·)))).countP isDot ≤
      1 + (decode (text.filter (!isDropped ·))).length := by
  have hresolve := length_shown_resolve []
    (Text.parts '/' (encode isPathChar (text.filter (!isDropped ·))))
  rw [← decode_path, shown_parts, List.length_append] at hresolve
  exact hresolve.trans (Nat.le_of_eq (Nat.zero_add _))

theorem countP_isDot_pos {text segment : List Char} (h : segment ∈ Text.parts '/' text)
    (hdot : segment = ['.'] ∨ segment = ['.', '.']) :
    0 < (Text.parts '/' (encode isPathChar text)).countP isDot := by
  refine List.countP_pos_iff.mpr ⟨encode isPathChar segment, ?_, ?_⟩
  · rw [parts_encode]
    exact List.mem_map_of_mem h
  · rcases hdot with rfl | rfl
    · decide
    · decide

/-- Of a text that is not plain a path shows too little. -/
theorem length_decode_path_lt {text : List Char} (h : ¬ Plain text) :
    (decode (path text)).length < Utf8.size ('/' :: text) := by
  have hpath := length_decode_path text
  have hdecode := length_decode_le (text.filter (!isDropped ·))
  have hsize := Utf8.size_filter (!isDropped ·) text
  have hslash : Utf8.size ('/' :: text) = 1 + Utf8.size text := Utf8.size_cons '/' text
  -- A dropped character is lost at once, an escape in decoding, and a dot segment in resolving.
  by_cases hkept : ∀ c ∈ text, isDropped c = false
  · rw [filter_eq_self hkept] at hpath hdecode
    by_cases hescape : HasEscape text
    · have hlt := length_decode_lt hescape
      omega
    · obtain ⟨segment, hsegment, hdot⟩ : ∃ segment ∈ Text.parts '/' text,
          segment = ['.'] ∨ segment = ['.', '.'] := by
        by_contra hnone
        refine h ⟨hkept, hescape, fun segment hsegment => ⟨fun heq => ?_, fun heq => ?_⟩⟩
        · exact hnone ⟨segment, hsegment, .inl heq⟩
        · exact hnone ⟨segment, hsegment, .inr heq⟩
      have hpos := countP_isDot_pos hsegment hdot
      omega
  · obtain ⟨c, hc, hdropped⟩ : ∃ c ∈ text, isDropped c = true := by simpa using hkept
    have hmem : c ∈ text.filter fun c => !!isDropped c :=
      List.mem_filter.mpr ⟨hc, by simpa using hdropped⟩
    have hpos := Utf8.size_pos_of_mem hmem
    omega

/-- A path shows exactly the texts that are plain. -/
theorem decode_path_iff (text : List Char) :
    decode (path text) = Utf8.encode ('/' :: text) ↔ Plain text := by
  refine ⟨fun h => ?_, decode_path_of_plain⟩
  by_contra hplain
  have hlt := length_decode_path_lt hplain
  rw [h] at hlt
  exact absurd hlt (Nat.lt_irrefl _)

/-! ## The characters of a path -/

theorem mem_of_mem_shorten {segment : List Char} {done : List (List Char)}
    (h : segment ∈ shorten done) : segment ∈ done := by
  cases done with
  | nil => exact h
  | cons last more =>
    rw [shorten] at h
    split at h
    · exact h
    · exact List.mem_cons_of_mem last h

/-- Resolving puts nothing into a path but empty segments. -/
theorem mem_of_mem_resolve {segment : List Char} {done segments : List (List Char)}
    (h : segment ∈ resolve done segments) :
    segment = [] ∨ segment ∈ done ∨ segment ∈ segments := by
  fun_induction resolve done segments with
  | case1 done => exact .inr (.inl (List.mem_reverse.mp h))
  | case2 done last hdouble =>
    rcases List.mem_cons.mp (List.mem_reverse.mp h) with h | h
    · exact .inl h
    · exact .inr (.inl (mem_of_mem_shorten h))
  | case3 done last hdouble hsingle =>
    rcases List.mem_cons.mp (List.mem_reverse.mp h) with h | h
    · exact .inl h
    · exact .inr (.inl h)
  | case4 done last hdouble hsingle =>
    rcases List.mem_cons.mp (List.mem_reverse.mp h) with h | h
    · exact .inr (.inr (List.mem_singleton.mpr h))
    · exact .inr (.inl h)
  | case5 done first rest hrest hdouble ih =>
    exact (ih h).imp_right fun h => h.imp mem_of_mem_shorten (List.mem_cons_of_mem first)
  | case6 done first rest hrest hdouble hsingle ih =>
    exact (ih h).imp_right fun h => h.imp_right (List.mem_cons_of_mem first)
  | case7 done first rest hrest hdouble hsingle ih =>
    rcases ih h with h | h | h
    · exact .inl h
    · rcases List.mem_cons.mp h with h | h
      · exact .inr (.inr (h ▸ List.mem_cons_self))
      · exact .inr (.inl h)
    · exact .inr (.inr (List.mem_cons_of_mem first h))

theorem resolve_ne_nil (done : List (List Char)) {segments : List (List Char)}
    (h : segments ≠ []) :
    resolve done segments ≠ [] := by
  fun_induction resolve done segments with
  | case1 => exact absurd rfl h
  | case2 | case3 | case4 => simp only [ne_eq, List.reverse_eq_nil_iff, reduceCtorEq,
      not_false_eq_true]
  | case5 done first rest hrest hdouble ih => exact ih hrest
  | case6 done first rest hrest hdouble hsingle ih => exact ih hrest
  | case7 done first rest hrest hdouble hsingle ih => exact ih hrest

theorem forall_mem_path (text : List Char) : ∀ c ∈ path text, isPathChar c = true := by
  intro c hc
  obtain ⟨segment, hsegment, hc⟩ := List.mem_flatMap.mp hc
  rcases List.mem_cons.mp hc with rfl | hc
  · decide
  · rcases mem_of_mem_resolve hsegment with rfl | hdone | hpart
    · cases hc
    · cases hdone
    · exact forall_mem_encode (fun _ => id) (by decide) (by decide) _ c
        ((Text.infix_of_mem_parts hpart).subset hc)

theorem exists_path_eq_cons (text : List Char) : ∃ rest, path text = '/' :: rest := by
  obtain ⟨first, more, hresolve⟩ := List.exists_cons_of_ne_nil
    (resolve_ne_nil [] (Text.parts_ne_nil '/'
      (encode isPathChar (text.filter (!isDropped ·)))))
  exact ⟨first ++ more.flatMap ('/' :: ·), congrArg (List.flatMap ('/' :: ·)) hresolve⟩

end Url
end Contestant
