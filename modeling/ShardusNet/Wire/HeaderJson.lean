import ShardusNet.Lib.Decimal
import ShardusNet.Wire.Header
/-!
# Headers from JSON

`HeaderV1::from_json_string` and `header_from_json_string`, over the function that `serde_json`
derives for `HeaderV1`. `Documented` is what the crates document of that function; `standInFromStr`
is a function that reads the texts of objects with the five fields that `to_json_string` writes.
-/

namespace ShardusNet.Wire
open ByteCodec JsonText

/-- `HeaderV1::from_json_string`, over the function that `serde_json` derives for `HeaderV1`. -/
def HeaderV1.fromJsonString (fromStr : String → Option HeaderV1) (jsonStr : String) : Option HeaderV1 :=
  fromStr jsonStr

/-- `header_from_json_string`. -/
def headerFromJsonString (fromStr : String → Option HeaderV1) (jsonStr : String) (version : UInt8) :
    Option Header :=
  if version = 1 then (HeaderV1.fromJsonString fromStr jsonStr).map .V1 else none

/-- The value of a string field: that of a member with the name of the field, or the default. -/
def ReadsMember (ms : List (Str × Json)) (name : Str) (x : String) : Prop :=
  (name, .str (utf16 x)) ∈ ms ∨ x = ""

/-- The value of a string field: that of the element at its position, or the default. -/
def ReadsElement (vs : List Json) (i : ℕ) (x : String) : Prop :=
  .str (utf16 x) ∈ vs[i]? ∨ x = ""

/-- The string fields of a header that is read from an object or an array. -/
def ReadsFrom (h : HeaderV1) : Json → Prop
  | .obj ms =>
    ReadsMember ms (utf16 "sender_id") h.senderId ∧ ReadsMember ms (utf16 "tracker_id") h.trackerId ∧
      ReadsMember ms (utf16 "verification_data") h.verificationData
  | .arr vs =>
    ReadsElement vs 2 h.senderId ∧ ReadsElement vs 3 h.trackerId ∧ ReadsElement vs 4 h.verificationData
  | _ => False

/-- The object with the members that `to_json_string` writes. -/
def HeaderV1.json (h : HeaderV1) : Json :=
  .obj [(utf16 "uuid", .str (utf16 (String.ofList h.uuid.display))),
    (utf16 "message_length", .num (utf16 (toString h.messageLength.toNat))),
    (utf16 "sender_id", .str (utf16 h.senderId)),
    (utf16 "tracker_id", .str (utf16 h.trackerId)),
    (utf16 "verification_data", .str (utf16 h.verificationData))]

/-- What `serde_json` documents of the derived function: it reads JSON texts only, it takes strings
    as they are in the text, and it reads an object that has each field once, with the default for
    the compression that is not there. -/
structure Documented (fromStr : String → Option HeaderV1) : Prop where
  reads : ∀ {s h}, fromStr s = some h → ∃ v, parse (utf16 s) = some v ∧ ReadsFrom h v
  complete : ∀ {s} {h : HeaderV1}, parse (utf16 s) = some h.json →
    fromStr s = some { h with compression := .None }

/-! ## A function as documented -/

/-- The characters of UTF-16 units. -/
def unitChars : Str → List Char
  | [] => []
  | [u] => [Char.ofNat u.toNat]
  | u :: v :: s =>
    if 0xd800 ≤ u.toNat ∧ u.toNat < 0xdc00 then
      Char.ofNat (0x10000 + (u.toNat - 0xd800) * 0x400 + (v.toNat - 0xdc00)) :: unitChars s
    else Char.ofNat u.toNat :: unitChars (v :: s)

/-- The string with these units. -/
def ofUnits (x : Str) : Option String :=
  if utf16 (String.ofList (unitChars x)) = x then some (String.ofList (unitChars x)) else none

/-- The UUID that is displayed as these characters. -/
def Uuid.ofDisplay (cs : List Char) : Option Uuid := do
  let bytes ← Hex.decode (cs.filter (· ≠ '-'))
  Uuid.fromBytes bytes

/-- The `u32` with this numeral. -/
def ofNumeral (w : Str) : Option UInt32 :=
  if digitsValue w < 2 ^ 32 then some (UInt32.ofNat (digitsValue w)) else none

/-- The function derived for `HeaderV1`, on objects with the fields that `to_json_string` writes. -/
def standInFromStr (s : String) : Option HeaderV1 :=
  match parse (utf16 s) with
  | some (.obj [(k₁, .str u), (k₂, .num w), (k₃, .str a), (k₄, .str b), (k₅, .str c)]) =>
    if k₁ = utf16 "uuid" ∧ k₂ = utf16 "message_length" ∧ k₃ = utf16 "sender_id" ∧
        k₄ = utf16 "tracker_id" ∧ k₅ = utf16 "verification_data" then do
      let uuid ← ofUnits u
      let uuid ← Uuid.ofDisplay uuid.toList
      let messageLength ← ofNumeral w
      let senderId ← ofUnits a
      let trackerId ← ofUnits b
      let verificationData ← ofUnits c
      some ⟨uuid, messageLength, senderId, trackerId, verificationData, .None⟩
    else none
  | _ => none

/-- Only the units of the string itself are read as a string. -/
lemma utf16_of_ofUnits {x s} (h : ofUnits x = some s) : utf16 s = x := by
  unfold ofUnits at h
  split at h
  case isTrue e =>
    cases h
    exact e
  case isFalse => cases h

/-- The characters of the units of a character in front. -/
lemma unitChars_charUnits (c : Char) (s : Str) : unitChars (charUnits c ++ s) = c :: unitChars s := by
  have hc : c.toNat < 0xd800 ∨ 0xdfff < c.toNat ∧ c.toNat < 0x110000 := c.valid
  unfold charUnits
  split
  case isTrue h =>
    have hu : (UInt16.ofNat c.toNat).toNat = c.toNat := by
      rw [UInt16.toNat_ofNat']
      omega
    cases s with
    | nil => simp [unitChars, hu]
    | cons v s =>
      rw [List.singleton_append, unitChars, hu, if_neg (by omega), Char.ofNat_toNat]
  case isFalse h =>
    have hu : (UInt16.ofNat (0xd800 + (c.toNat - 0x10000) / 0x400)).toNat =
        0xd800 + (c.toNat - 0x10000) / 0x400 := by
      rw [UInt16.toNat_ofNat']
      omega
    have hv : (UInt16.ofNat (0xdc00 + (c.toNat - 0x10000) % 0x400)).toNat =
        0xdc00 + (c.toNat - 0x10000) % 0x400 := by
      rw [UInt16.toNat_ofNat']
      omega
    have e : 0x10000 + (0xd800 + (c.toNat - 0x10000) / 0x400 - 0xd800) * 0x400 +
        (0xdc00 + (c.toNat - 0x10000) % 0x400 - 0xdc00) = c.toNat := by omega
    rw [List.cons_append, List.singleton_append, unitChars, hu, hv, if_pos (by omega), e,
      Char.ofNat_toNat]

/-- The units of a string are read as the string. -/
lemma ofUnits_utf16 (s : String) : ofUnits (utf16 s) = some s := by
  have hchars : ∀ cs : List Char, unitChars (cs.flatMap charUnits) = cs := by
    intro cs
    induction cs with
    | nil => rfl
    | cons c cs ih => rw [List.flatMap_cons, unitChars_charUnits, ih]
  have e : String.ofList (unitChars (utf16 s)) = s := by
    rw [utf16, hchars, String.ofList_toList]
  rw [ofUnits, e, if_pos rfl]

/-- The display of a UUID is read as the UUID. -/
lemma Uuid.ofDisplay_display (u : Uuid) : Uuid.ofDisplay u.display = some u := by
  have hdash : ∀ b, (Hex.encode b).filter (· ≠ '-') = Hex.encode b := by
    intro b
    rw [List.filter_eq_self]
    intro c hc
    have hdigits : ("0123456789abcdef".toList.all fun c => c ≠ '-') = true := by decide
    exact List.all_eq_true.mp hdigits c (Hex.mem_encode hc)
  have hjoin : (u.display).filter (· ≠ '-') = Hex.encode u.bytes := by
    have hsplit : ∀ l : Bytes, l.take 4 ++ ((l.drop 4).take 2 ++ ((l.drop 6).take 2 ++
        ((l.drop 8).take 2 ++ l.drop 10))) = l := by
      intro l
      have hdrop : ∀ n, (l.drop n).take 2 ++ l.drop (n + 2) = l.drop n := by
        intro n
        rw [← List.drop_drop, List.take_append_drop]
      rw [hdrop 8, hdrop 6, hdrop 4, List.take_append_drop]
    have hdash' : ('-' ≠ '-') = False := by simp
    simp only [display, List.append_assoc, List.cons_append, List.filter_append, List.filter_cons,
      hdash, hdash', decide_false, Bool.false_eq_true, if_false, ← Hex.encode_append, hsplit]
  have hbytes : Hex.decode ((u.display).filter (· ≠ '-')) = some u.bytes := by
    rw [hjoin, Hex.decode_encode]
  rw [ofDisplay, hbytes]
  exact Uuid.fromBytes_eq_some.mpr rfl

/-- The stand-in does what is documented. -/
lemma documented_standInFromStr : Documented standInFromStr := by
  refine ⟨?_, ?_⟩
  · intro s h hs
    unfold standInFromStr at hs
    split at hs
    case h_1 k₁ u k₂ w k₃ a k₄ b k₅ c hparse =>
      refine ⟨_, hparse, ?_⟩
      split at hs
      case isTrue hk =>
        obtain ⟨_, _, rfl, rfl, rfl⟩ := hk
        simp only [Option.bind_eq_bind, Option.bind_eq_some_iff] at hs
        obtain ⟨_, _, _, _, _, _, senderId, ha, trackerId, hb, verificationData, hc, e⟩ := hs
        cases e
        rw [← utf16_of_ofUnits ha, ← utf16_of_ofUnits hb, ← utf16_of_ofUnits hc]
        exact ⟨.inl (by simp), .inl (by simp), .inl (by simp)⟩
      case isFalse => cases hs
    case h_2 => cases hs
  · intro s h hparse
    have hlt : digitsValue (utf16 (toString h.messageLength.toNat)) < 2 ^ 32 := by
      rw [digitsValue_toString]
      exact h.messageLength.toNat_lt
    have hnumeral : ofNumeral (utf16 (toString h.messageLength.toNat)) = some h.messageLength := by
      rw [ofNumeral, if_pos hlt, digitsValue_toString, UInt32.ofNat_toNat]
    rw [standInFromStr, hparse]
    simp only [HeaderV1.json, and_self, if_true, Option.bind_eq_bind, ofUnits_utf16,
      Option.bind_some, String.toList_ofList, Uuid.ofDisplay_display, hnumeral]

end ShardusNet.Wire
