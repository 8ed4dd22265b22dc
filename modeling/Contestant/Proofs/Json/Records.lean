import Contestant.Json.Record
import Contestant.Proofs.Json.Written

/-!
Records are read from written objects.

`Gathers` says which record some members come to, by what each of them adds; the reader follows it
member by member, whatever is written for the members that the record has no field for.
-/

namespace Contestant
namespace Record

open JsonSource JsonByte

/-! ## Fields -/

/-- What a field reads a written value to. -/
inductive Takes : FieldKind → JsonValue → FieldValue → Prop
  | text (value : String) : Takes .text (.text value) (.text value)
  | optionalText (value : String) : Takes .optionalText (.text value) (.text value)
  | value {value : JsonValue} {source : JsonSource} (hscans : Scans value source)
      (hnull : source ≠ .null) : Takes .value value (.source source)

theorem readQuoted_inside (text : String) (rest : List UInt8) :
    readQuoted (inside text ++ quote :: rest) = .ok (text, rest) := by
  obtain ⟨units, hunits, hscan⟩ := exists_scanText_inside text
  simp only [readQuoted, hscan, hunits]

theorem readText_quote (text : String) (rest : List UInt8) :
    readText (Utf8.encode (JsonValue.quote text) ++ rest) = .ok (text, rest) := by
  rw [encode_quote, readText, skipTo_cons (by decide)]
  exact readQuoted_inside text rest

theorem readField_of_takes {kind : FieldKind} {value : JsonValue} {read : FieldValue}
    (h : Takes kind value read) {b : UInt8} (hb : IsEnd b) (rest : List UInt8) :
    readField kind (Utf8.encode value.write ++ b :: rest) = .ok (read, b :: rest) := by
  cases h with
  | text text =>
    rw [JsonValue.write, readField, readText_quote]
    rfl
  | optionalText text =>
    have hword : scanWord (skipBlank (Utf8.encode (JsonValue.quote text) ++ b :: rest)) = none := by
      rw [encode_quote, skipBlank_of_not_blank (by decide)]
      exact scanWord_of_ne (by decide) (by decide) (by decide) _
    rw [JsonValue.write, readField, hword, readText_quote]
    rfl
  | value hscans hnull =>
    simp only [readField, hscans.scan hb]

/-! ## Members -/

/-- What one written member adds to the fields that were read before it. -/
inductive Adds (fields : List RecordField) : Record → String × JsonValue → Record → Prop
  | field {seen : Record} {name : String} {value : JsonValue} {field : RecordField}
      {read : FieldValue} (hfind : fields.find? (fun field => field.name = name) = some field)
      (hnew : seen.lookup name = none) (htakes : Takes field.kind value read) :
      Adds fields seen (name, value) (seen ++ [(name, read)])
  | other {seen : Record} {name : String} {value : JsonValue} {source : JsonSource}
      (hfind : fields.find? (fun field => field.name = name) = none)
      (hscans : Scans value source) : Adds fields seen (name, value) seen

/-- The record that written members come to. -/
inductive Gathers (fields : List RecordField) : Record → List (String × JsonValue) → Record → Prop
  | nil (seen : Record) : Gathers fields seen [] seen
  | cons {seen seen' record : Record} {member : String × JsonValue}
      {members : List (String × JsonValue)} (h : Adds fields seen member seen')
      (hrest : Gathers fields seen' members record) : Gathers fields seen (member :: members) record

variable {fields : List RecordField} {seen seen' record : Record}

theorem require_cons {b : UInt8} (hb : isBlank b = false) (rest : List UInt8) :
    require b (b :: rest) = .ok rest := by
  rw [require, skipTo_cons hb]

theorem readMember_of_adds {name : String} {value : JsonValue}
    (h : Adds fields seen (name, value) seen') {b : UInt8} (hb : IsEnd b) (fuel : Nat)
    (rest : List UInt8) :
    readMember fields (fuel + 1) seen name (colon :: (Utf8.encode value.write ++ b :: rest)) =
      .ok (seen', b :: rest) := by
  have hcolon := require_cons (by decide : isBlank colon = false)
    (Utf8.encode value.write ++ b :: rest)
  cases h with
  | field hfind hnew htakes =>
    simp only [readMember, hfind, hnew, hcolon, Option.isSome_none, Bool.false_eq_true, if_false]
    simp only [bind, Except.bind, readField_of_takes htakes hb]
  | other hfind hscans =>
    simp only [readMember, hfind, hcolon, bind, Except.bind, hscans fuel b rest hb]

theorem readMembers_last {name : String} {value : JsonValue}
    (h : Adds fields seen (name, value) record) (fuel : Nat) (rest : List UInt8) :
    readMembers fields (fuel + 2) seen (Utf8.encode (JsonValue.quote name) ++
      colon :: (Utf8.encode value.write ++ closeBrace :: rest)) = .ok (record, rest) := by
  have hbrace := require_cons (by decide : isBlank closeBrace = false) rest
  rw [encode_quote, readMembers, require_cons (by decide)]
  simp only [bind, Except.bind, readQuoted_inside, readMember_of_adds h (.inr rfl),
    skipTo_of_ne (by decide : isBlank closeBrace = false) (by decide : closeBrace ≠ comma), hbrace]
  rfl

theorem readMembers_comma {name : String} {value : JsonValue}
    (h : Adds fields seen (name, value) seen') (fuel : Nat) (rest : List UInt8) :
    readMembers fields (fuel + 2) seen (Utf8.encode (JsonValue.quote name) ++
      colon :: (Utf8.encode value.write ++ comma :: rest)) =
      readMembers fields (fuel + 1) seen' rest := by
  rw [encode_quote, readMembers, require_cons (by decide)]
  simp only [bind, Except.bind, readQuoted_inside, readMember_of_adds h (.inl rfl),
    skipTo_cons (by decide : isBlank comma = false)]

theorem encode_writeMembers_last (name : String) (value : JsonValue) (rest : List UInt8) :
    Utf8.encode (JsonValue.writeMembers [(name, value)]) ++ rest =
      Utf8.encode (JsonValue.quote name) ++ colon :: (Utf8.encode value.write ++ rest) := by
  rw [JsonValue.writeMembers, ← List.singleton_append, Utf8.encode_append, Utf8.encode_append]
  simp only [List.append_assoc]
  rfl

theorem encode_writeMembers_cons (name : String) (value : JsonValue)
    {more : List (String × JsonValue)} (hmore : more ≠ []) (rest : List UInt8) :
    Utf8.encode (JsonValue.writeMembers ((name, value) :: more)) ++ rest =
      Utf8.encode (JsonValue.quote name) ++ colon :: (Utf8.encode value.write ++
        comma :: (Utf8.encode (JsonValue.writeMembers more) ++ rest)) := by
  cases more with
  | nil => exact absurd rfl hmore
  | cons next more =>
    have hwrite : JsonValue.writeMembers ((name, value) :: next :: more) =
        JsonValue.quote name ++ ([':'] ++ (value.write ++ ([','] ++
          JsonValue.writeMembers (next :: more)))) := by
      rw [JsonValue.writeMembers, List.append_assoc]
      · rfl
      · exact List.cons_ne_nil next more
    rw [hwrite]
    simp only [Utf8.encode_append, List.append_assoc]
    rfl

/-- Reading goes member by member. -/
theorem readMembers_of_gathers {members : List (String × JsonValue)} (hne : members ≠ [])
    (h : Gathers fields seen members record) (fuel : Nat) (hfuel : members.length < fuel)
    (rest : List UInt8) :
    readMembers fields fuel seen
      (Utf8.encode (JsonValue.writeMembers members) ++ closeBrace :: rest) =
      .ok (record, rest) := by
  induction h generalizing fuel with
  | nil => exact absurd rfl hne
  | @cons seen seen' record member members hadds hrest ih =>
    obtain ⟨name, value⟩ := member
    rw [List.length_cons] at hfuel
    obtain ⟨fuel, rfl⟩ : ∃ more, fuel = more + 2 := ⟨fuel - 2, by omega⟩
    by_cases hmembers : members = []
    · subst hmembers
      cases hrest
      rw [encode_writeMembers_last, readMembers_last hadds]
    · rw [encode_writeMembers_cons _ _ hmembers, readMembers_comma hadds]
      exact ih hmembers (fuel + 1) (by omega)

/-- Each member takes at least one byte. -/
theorem length_le_encode_writeMembers (members : List (String × JsonValue)) :
    members.length ≤ (Utf8.encode (JsonValue.writeMembers members)).length := by
  induction members with
  | nil => exact Nat.zero_le _
  | cons member more ih =>
    obtain ⟨name, value⟩ := member
    by_cases hmore : more = []
    · have hlast := congrArg List.length (encode_writeMembers_last name value [])
      simp only [List.length_append, List.length_cons, List.length_nil] at hlast
      subst hmore
      rw [List.length_singleton]
      omega
    · have hcons := congrArg List.length (encode_writeMembers_cons name value hmore [])
      simp only [List.length_append, List.length_cons, List.length_nil] at hcons
      rw [List.length_cons]
      omega

theorem exists_encode_writeMembers_eq_cons {members : List (String × JsonValue)}
    (hne : members ≠ []) (rest : List UInt8) :
    ∃ inner, Utf8.encode (JsonValue.writeMembers members) ++ rest = quote :: inner := by
  cases members with
  | nil => exact absurd rfl hne
  | cons member more =>
    obtain ⟨name, value⟩ := member
    by_cases hmore : more = []
    · subst hmore
      exact ⟨_, (encode_writeMembers_last name value rest).trans (encode_quote name _)⟩
    · exact ⟨_, (encode_writeMembers_cons name value hmore rest).trans (encode_quote name _)⟩

/-! ## Documents -/

theorem readObject_of_gathers {members : List (String × JsonValue)} (hne : members ≠ [])
    (h : Gathers fields [] members record) (hcomplete : isComplete fields record = true) :
    readObject fields (Utf8.encode (JsonValue.writeMembers members) ++ [closeBrace]) =
      .ok (record, []) := by
  have hfuel : members.length <
      2 * (Utf8.encode (JsonValue.writeMembers members) ++ [closeBrace]).length + 2 := by
    have hlength := length_le_encode_writeMembers members
    rw [List.length_append]
    omega
  have hclose : skipTo closeBrace
      (Utf8.encode (JsonValue.writeMembers members) ++ [closeBrace]) = none := by
    obtain ⟨inner, hinner⟩ := exists_encode_writeMembers_eq_cons hne [closeBrace]
    rw [hinner, skipTo_of_ne (by decide) (by decide)]
  rw [readObject, hclose]
  simp only [bind, Except.bind, readMembers_of_gathers hne h _ hfuel, hcomplete, if_true]

/-- A written object is read to the record that its members come to. -/
theorem ofBytes_of_gathers {members : List (String × JsonValue)} (hne : members ≠ [])
    (h : Gathers fields [] members record) (hcomplete : isComplete fields record = true) :
    ofBytes fields (Utf8.encode (JsonValue.object members).write) = .ok record := by
  have hbytes : Utf8.encode (JsonValue.object members).write =
      openBrace :: (Utf8.encode (JsonValue.writeMembers members) ++ [closeBrace]) := by
    rw [JsonValue.write, ← List.singleton_append, Utf8.encode_append, Utf8.encode_append]
    rfl
  rw [ofBytes, hbytes, readFront, skipTo_cons (by decide)]
  simp only [bind, Except.bind, readObject_of_gathers hne h hcomplete]
  rfl

end Record
end Contestant
