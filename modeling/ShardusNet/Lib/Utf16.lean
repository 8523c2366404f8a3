import ShardusNet.Lib.JsonWrite
/-!
# Well-formed UTF-16

A string of UTF-16 units is well formed when its surrogates come in pairs: then it is the units of a
string of characters, and nothing is lost when it is converted to one. In any other string a
surrogate outside of a pair becomes U+FFFD.

* `utf16_toChars`: well-formed units come back.
* `wellFormed_write`: JSON texts are well formed, whatever strings are in them.
-/

namespace JsonText

/-- The character of a surrogate pair. -/
def pairChar (u v : UInt16) : Char :=
  Char.ofNat (0x10000 + (u.toNat - 0xd800) * 0x400 + (v.toNat - 0xdc00))

/-- The character of a unit outside of a pair. -/
def unitChar (u : UInt16) : Char :=
  if isHigh u || isLow u then Char.ofNat 0xfffd else Char.ofNat u.toNat

/-- The characters of a string of units. -/
def toChars : Str → List Char
  | [] => []
  | [u] => [unitChar u]
  | u :: v :: s =>
    if isHigh u && isLow v then pairChar u v :: toChars s else unitChar u :: toChars (v :: s)

/-- The string of characters that a string of units is converted to. -/
def ofUtf16 (s : Str) : String := String.ofList (toChars s)

/-- The units of some string. -/
def WellFormed (s : Str) : Prop := ∃ t : String, s = utf16 t

/-! ## Surrogates -/

/-- The range of the first halves of pairs. -/
lemma isHigh_iff {u : UInt16} : isHigh u = true ↔ 0xd800 ≤ u.toNat ∧ u.toNat < 0xdc00 := by
  rw [isHigh, Bool.and_eq_true, decide_eq_true_iff, decide_eq_true_iff, UInt16.le_iff_toNat_le,
    UInt16.lt_iff_toNat_lt]
  rfl

/-- The range of the second halves of pairs. -/
lemma isLow_iff {u : UInt16} : isLow u = true ↔ 0xdc00 ≤ u.toNat ∧ u.toNat < 0xe000 := by
  rw [isLow, Bool.and_eq_true, decide_eq_true_iff, decide_eq_true_iff, UInt16.le_iff_toNat_le,
    UInt16.lt_iff_toNat_lt]
  rfl

/-- A pair is the units of its character. -/
lemma charUnits_pairChar {u v : UInt16} (hu : isHigh u = true) (hv : isLow v = true) :
    charUnits (pairChar u v) = [u, v] := by
  rw [isHigh_iff] at hu
  rw [isLow_iff] at hv
  have hvalid : (0x10000 + (u.toNat - 0xd800) * 0x400 + (v.toNat - 0xdc00)).isValidChar := by
    refine .inr ⟨?_, ?_⟩ <;> omega
  have hnat : (pairChar u v).toNat = 0x10000 + (u.toNat - 0xd800) * 0x400 + (v.toNat - 0xdc00) := by
    rw [pairChar, Char.ofNat, dif_pos hvalid]
    rfl
  rw [charUnits, if_neg (by omega), hnat]
  have hhigh : 0xd800 + (0x10000 + (u.toNat - 0xd800) * 0x400 + (v.toNat - 0xdc00) - 0x10000) / 0x400 =
      u.toNat := by omega
  have hlow : 0xdc00 + (0x10000 + (u.toNat - 0xd800) * 0x400 + (v.toNat - 0xdc00) - 0x10000) % 0x400 =
      v.toNat := by omega
  rw [hhigh, hlow, UInt16.ofNat_toNat, UInt16.ofNat_toNat]

/-- A unit that is no surrogate is the units of its character. -/
lemma charUnits_ofNat {u : UInt16} (hu : u.toNat < 0xd800 ∨ 0xe000 ≤ u.toNat) :
    charUnits (Char.ofNat u.toNat) = [u] := by
  have hlt := u.toNat_lt
  have hvalid : u.toNat.isValidChar := by
    rcases hu with h | h
    · exact .inl h
    · refine .inr ⟨?_, ?_⟩ <;> omega
  have hnat : (Char.ofNat u.toNat).toNat = u.toNat := by
    rw [Char.ofNat, dif_pos hvalid]
    rfl
  rw [charUnits, hnat, if_pos hlt, UInt16.ofNat_toNat]

/-- The units of a character are read as it, whatever comes behind them. -/
lemma toChars_charUnits (c : Char) (s : Str) : toChars (charUnits c ++ s) = c :: toChars s := by
  have hc : c.toNat < 0xd800 ∨ 0xdfff < c.toNat ∧ c.toNat < 0x110000 := c.valid
  unfold charUnits
  split
  case isTrue h =>
    have hu : (UInt16.ofNat c.toNat).toNat = c.toNat := by
      rw [UInt16.toNat_ofNat']
      omega
    have hhigh : isHigh (UInt16.ofNat c.toNat) = false := by
      rw [← Bool.not_eq_true, isHigh_iff, hu]
      omega
    have hlow : isLow (UInt16.ofNat c.toNat) = false := by
      rw [← Bool.not_eq_true, isLow_iff, hu]
      omega
    have hunit : unitChar (UInt16.ofNat c.toNat) = c := by
      rw [unitChar, hhigh, hlow, hu, Char.ofNat_toNat]
      rfl
    cases s with
    | nil =>
      show [unitChar (UInt16.ofNat c.toNat)] = [c]
      rw [hunit]
    | cons v s =>
      rw [List.singleton_append, toChars, hhigh, Bool.false_and, if_neg Bool.false_ne_true, hunit]
  case isFalse h =>
    have hu : (UInt16.ofNat (0xd800 + (c.toNat - 0x10000) / 0x400)).toNat =
        0xd800 + (c.toNat - 0x10000) / 0x400 := by
      rw [UInt16.toNat_ofNat']
      omega
    have hv : (UInt16.ofNat (0xdc00 + (c.toNat - 0x10000) % 0x400)).toNat =
        0xdc00 + (c.toNat - 0x10000) % 0x400 := by
      rw [UInt16.toNat_ofNat']
      omega
    have hhigh : isHigh (UInt16.ofNat (0xd800 + (c.toNat - 0x10000) / 0x400)) = true := by
      rw [isHigh_iff, hu]
      omega
    have hlow : isLow (UInt16.ofNat (0xdc00 + (c.toNat - 0x10000) % 0x400)) = true := by
      rw [isLow_iff, hv]
      omega
    have hnat : 0x10000 + (0xd800 + (c.toNat - 0x10000) / 0x400 - 0xd800) * 0x400 +
        (0xdc00 + (c.toNat - 0x10000) % 0x400 - 0xdc00) = c.toNat := by omega
    rw [List.cons_append, List.singleton_append, toChars, hhigh, hlow, Bool.and_self, if_pos rfl,
      pairChar, hu, hv, hnat, Char.ofNat_toNat]

/-- The units of a string are converted to the string. -/
lemma ofUtf16_utf16 (s : String) : ofUtf16 (utf16 s) = s := by
  have hchars : ∀ cs : List Char, toChars (cs.flatMap charUnits) = cs := by
    intro cs
    induction cs with
    | nil => rfl
    | cons c cs ih => rw [List.flatMap_cons, toChars_charUnits, ih]
  rw [ofUtf16, utf16, hchars, String.ofList_toList]

/-- Well-formed units come back. -/
lemma WellFormed.utf16_ofUtf16 {s} (h : WellFormed s) : utf16 (ofUtf16 s) = s := by
  obtain ⟨t, rfl⟩ := h
  rw [ofUtf16_utf16]

/-! ## Well-formed strings -/

/-- No units are well formed. -/
lemma wellFormed_nil : WellFormed [] := ⟨"", rfl⟩

/-- Well-formed strings one after the other are well formed. -/
lemma WellFormed.append {s t} (hs : WellFormed s) (ht : WellFormed t) : WellFormed (s ++ t) := by
  obtain ⟨s, rfl⟩ := hs
  obtain ⟨t, rfl⟩ := ht
  refine ⟨s ++ t, ?_⟩
  rw [utf16, utf16, utf16, String.toList_append, List.flatMap_append]

/-- The units of a character are well formed. -/
lemma wellFormed_charUnits (c : Char) : WellFormed (charUnits c) := by
  refine ⟨String.ofList [c], ?_⟩
  rw [utf16, String.toList_ofList, List.flatMap_singleton]

/-- A unit that is no half of a pair is well formed. -/
lemma wellFormed_unit {u : UInt16} (hu : u.toNat < 0xd800 ∨ 0xe000 ≤ u.toNat) : WellFormed [u] :=
  charUnits_ofNat hu ▸ wellFormed_charUnits _

/-- A unit more that is no half of a pair. -/
lemma WellFormed.cons {u : UInt16} {s} (hs : WellFormed s) (hu : u.toNat < 0xd800) :
    WellFormed (u :: s) :=
  (wellFormed_unit (.inl hu)).append hs

/-- Units none of which is a half of a pair are well formed. -/
lemma wellFormed_of_forall {s : Str} (h : ∀ u ∈ s, u.toNat < 0xd800) : WellFormed s := by
  induction s with
  | nil => exact wellFormed_nil
  | cons u s ih =>
    obtain ⟨hu, hs⟩ := List.forall_mem_cons.mp h
    exact (ih hs).cons hu

/-- Well-formed strings with a separator are well formed. -/
lemma wellFormed_intercalate {u : UInt16} (hu : u.toNat < 0xd800) {ss : List Str}
    (h : ∀ s ∈ ss, WellFormed s) : WellFormed ([u].intercalate ss) := by
  induction ss with
  | nil => exact wellFormed_nil
  | cons s ss ih =>
    obtain ⟨hs, hss⟩ := List.forall_mem_cons.mp h
    cases ss with
    | nil =>
      rw [List.intercalate_singleton]
      exact hs
    | cons t ts =>
      rw [List.intercalate_cons_cons, List.append_assoc]
      exact hs.append ((ih hss).cons hu)

/-! ## JSON texts -/

/-- A hexadecimal digit is no half of a pair. -/
lemma toNat_hexUnit_lt {n : ℕ} (hn : n < 16) : (hexUnit n).toNat < 0xd800 := by
  rw [hexUnit, UInt16.toNat_ofNat']
  split <;> omega

/-- A unicode escape is well formed. -/
lemma wellFormed_unicodeEscape (u : UInt16) : WellFormed (unicodeEscape u) := by
  have hlt := u.toNat_lt
  have hnil : WellFormed [] := wellFormed_nil
  rw [unicodeEscape]
  apply WellFormed.cons _ (by decide)
  apply WellFormed.cons _ (by decide)
  apply WellFormed.cons _ (toNat_hexUnit_lt (by omega))
  apply WellFormed.cons _ (toNat_hexUnit_lt (by omega))
  apply WellFormed.cons _ (toNat_hexUnit_lt (by omega))
  exact hnil.cons (toNat_hexUnit_lt (by omega))

/-- The escape of a unit that is no half of a pair is well formed. -/
lemma wellFormed_escapeUnit {u : UInt16} (hu : ¬ (isHigh u = true ∨ isLow u = true)) :
    WellFormed (escapeUnit u) := by
  rw [isHigh_iff, isLow_iff] at hu
  have hunit : WellFormed [u] := wellFormed_unit (by omega)
  have hshort : ∀ e : UInt16, e.toNat < 0xd800 → WellFormed [backslash, e] :=
    fun e he => (wellFormed_unit (.inl he)).cons (by decide)
  unfold escapeUnit
  split
  case isTrue => exact hshort 0x62 (by decide)
  split
  case isTrue => exact hshort 0x74 (by decide)
  split
  case isTrue => exact hshort 0x6e (by decide)
  split
  case isTrue => exact hshort 0x66 (by decide)
  split
  case isTrue => exact hshort 0x72 (by decide)
  split
  case isTrue => exact hunit.cons (by decide)
  split
  case isTrue => exact wellFormed_unicodeEscape u
  case isFalse => exact hunit

/-- What is written of a string is well formed: surrogates are written in pairs, or as escapes. -/
lemma wellFormed_escapeUnits (s : Str) : WellFormed (escapeUnits false s) ∧
    ∀ u, isHigh u = true → s.head?.any isLow = true → WellFormed (u :: escapeUnits true s) := by
  induction s with
  | nil => exact ⟨wellFormed_nil, nofun⟩
  | cons v s ih =>
    obtain ⟨hs, hpair⟩ := ih
    refine ⟨?_, ?_⟩
    · unfold escapeUnits
      split
      case isTrue h =>
        rw [Bool.and_eq_true] at h
        exact hpair v h.1 h.2
      split
      case isTrue h =>
        rw [Bool.and_false] at h
        cases h
      split
      case isTrue => exact (wellFormed_unicodeEscape v).append hs
      case isFalse h =>
        rw [Bool.or_eq_true] at h
        exact (wellFormed_escapeUnit h).append hs
    · intro u hu hv
      have hlow : isLow v = true := hv
      have hhigh : isHigh v = false := by
        rw [isLow_iff] at hlow
        rw [← Bool.not_eq_true, isHigh_iff]
        omega
      have hwritten : escapeUnits true (v :: s) = v :: escapeUnits false s := by
        rw [escapeUnits, hhigh, Bool.false_and, if_neg Bool.false_ne_true, hlow, Bool.and_self,
          if_pos rfl]
      rw [hwritten]
      show WellFormed ([u, v] ++ escapeUnits false s)
      rw [← charUnits_pairChar hu hlow]
      exact (wellFormed_charUnits _).append hs

/-- The text of any string is well formed. -/
lemma wellFormed_writeString (s : Str) : WellFormed (writeString s) :=
  ((wellFormed_escapeUnits s).1.append (wellFormed_unit (.inl (by decide)))).cons (by decide)

/-- A unit of a word is no half of a pair. -/
lemma toNat_lt_of_isWord {u : UInt16} (hu : isWord u = true) : u.toNat < 0xd800 := by
  have hle : u ≤ 0x7a := by
    simp only [isWord, isDigit, Bool.or_eq_true, Bool.and_eq_true, decide_eq_true_eq] at hu
    rcases hu with ((((h | h) | h) | rfl) | rfl) | rfl
    · exact UInt16.le_trans h.2 (by decide)
    · exact h.2
    · exact UInt16.le_trans h.2 (by decide)
    · decide
    · decide
    · decide
  have hnat : u.toNat ≤ 0x7a := UInt16.le_iff_toNat_le.mp hle
  omega

/-- The text of a JSON value is well formed, whatever strings are in it. -/
theorem wellFormed_write {j : Json} (h : j.Lexical) : WellFormed (write j) := by
  induction h with
  | null => exact ⟨"null", rfl⟩
  | bool b =>
    cases b with
    | false => exact ⟨"false", rfl⟩
    | true => exact ⟨"true", rfl⟩
  | num _ hw _ => exact wellFormed_of_forall fun u hu => toNat_lt_of_isWord (hw u hu)
  | str s => exact wellFormed_writeString s
  | @arr vs h ih =>
    have helements : ∀ s ∈ writeElements vs, WellFormed s := by
      induction vs with
      | nil => exact fun s hs => nomatch hs
      | cons v vs ihvs =>
        obtain ⟨hv, hvs⟩ := List.forall_mem_cons.mp ih
        exact List.forall_mem_cons.mpr ⟨hv, ihvs (List.forall_mem_cons.mp h).2 hvs⟩
    have hinner : WellFormed ([0x2c].intercalate (writeElements vs)) :=
      wellFormed_intercalate (by decide) helements
    exact (hinner.append (wellFormed_unit (.inl (by decide)))).cons (by decide)
  | @obj ms h ih =>
    have hmembers : ∀ s ∈ writeMembers ms, WellFormed s := by
      induction ms with
      | nil => exact fun s hs => nomatch hs
      | cons m ms ihms =>
        obtain ⟨hm, hms⟩ := List.forall_mem_cons.mp ih
        refine List.forall_mem_cons.mpr ⟨?_, ihms (List.forall_mem_cons.mp h).2 hms⟩
        exact (wellFormed_writeString m.1).append (hm.cons (by decide))
    have hinner : WellFormed ([0x2c].intercalate (writeMembers ms)) :=
      wellFormed_intercalate (by decide) hmembers
    exact (hinner.append (wellFormed_unit (.inl (by decide)))).cons (by decide)

end JsonText
