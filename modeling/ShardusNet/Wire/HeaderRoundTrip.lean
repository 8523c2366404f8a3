import ShardusNet.Wire.HeaderJson
/-!
# The JSON text of a header, parsed

What becomes of the text of `HeaderV1::to_json_string` when it is parsed, by `JSON.parse` in the
receiving application or by `from_json_string`.

`to_json_string` formats the three strings into the text without escaping. The text is the header
again exactly when none of them has a quotation mark, a backslash or a control character
(`HeaderV1.toJsonString_roundTrip_iff`).

The argument for "only when": a parsed string that is not plain is shorter than its quoted text,
which lies within one of the three strings of the header, so that a longest one of those that are
not plain cannot be parsed back.
-/

namespace ShardusNet.Wire
open JsonText

/-- The object that `JSON.parse` returns shows the fields of the header. -/
def HeaderV1.Shown (h : HeaderV1) : Json → Prop
  | .obj ms =>
    get (utf16 "uuid") ms = some (.str (utf16 (String.ofList h.uuid.display))) ∧
      (∃ w, get (utf16 "message_length") ms = some (.num w) ∧
        number w = some (h.messageLength.toNat : ℚ)) ∧
      get (utf16 "sender_id") ms = some (.str (utf16 h.senderId)) ∧
      get (utf16 "tracker_id") ms = some (.str (utf16 h.trackerId)) ∧
      get (utf16 "verification_data") ms = some (.str (utf16 h.verificationData))
  | _ => False

/-- The fields that the JSON text has are the same. -/
def HeaderV1.SameFields (h h' : HeaderV1) : Prop :=
  h.uuid = h'.uuid ∧ h.messageLength = h'.messageLength ∧ h.senderId = h'.senderId ∧
    h.trackerId = h'.trackerId ∧ h.verificationData = h'.verificationData

/-- A string without quotation marks, backslashes and control characters. -/
def Clean (s : String) : Prop := ∀ c ∈ s.toList, c ≠ '"' ∧ c ≠ '\\' ∧ 0x20 ≤ c.toNat

/-- It can be decided. -/
instance (s : String) : Decidable (Clean s) := List.decidableBAll _ _

/-- The strings of the header are clean. -/
structure HeaderV1.Clean (h : HeaderV1) : Prop where
  senderId : Wire.Clean h.senderId
  trackerId : Wire.Clean h.trackerId
  verificationData : Wire.Clean h.verificationData

/-! ## Units -/

/-- The units of two strings, one after the other. -/
lemma utf16_append (s t : String) : utf16 (s ++ t) = utf16 s ++ utf16 t := by
  rw [utf16, String.toList_append, List.flatMap_append]
  rfl

/-- The units of a character are plain exactly when the character is. -/
lemma plain_charUnits {c : Char} :
    (∀ u ∈ charUnits c, Plain u) ↔ c ≠ '"' ∧ c ≠ '\\' ∧ 0x20 ≤ c.toNat := by
  have hne : ∀ d : Char, c ≠ d ↔ c.toNat ≠ d.toNat := by
    intro d
    rw [not_iff_not]
    exact ⟨fun e => e ▸ rfl, fun e => Char.ext (UInt32.toNat_inj.mp e)⟩
  have hplain : ∀ n, n < 2 ^ 16 → (Plain (UInt16.ofNat n) ↔ n ≠ 0x22 ∧ n ≠ 0x5c ∧ 0x20 ≤ n) := by
    intro n hn
    simp only [Plain, quote, backslash, Ne, ← UInt16.toNat_inj, UInt16.le_iff_toNat_le,
      UInt16.toNat_ofNat', Nat.mod_eq_of_lt hn]
    rfl
  rw [hne, hne]
  have hc : c.toNat < 0x110000 := by
    have := c.valid
    simp only [UInt32.isValidChar, Nat.isValidChar] at this
    have e : c.toNat = c.val.toNat := rfl
    omega
  unfold charUnits
  split
  case isTrue h =>
    simp only [List.mem_singleton, forall_eq]
    exact hplain _ h
  case isFalse h =>
    simp only [List.forall_mem_cons, List.not_mem_nil, false_imp_iff, forall_true_iff, and_true]
    rw [hplain _ (by omega), hplain _ (by omega)]
    have hq : '"'.toNat = 0x22 := rfl
    have hb : '\\'.toNat = 0x5c := rfl
    omega

/-- The units of a string are plain exactly when the string is clean. -/
lemma plain_utf16 {s : String} : (∀ u ∈ utf16 s, Plain u) ↔ Clean s := by
  simp only [utf16, List.mem_flatMap, Clean, ← plain_charUnits]
  refine ⟨fun h c hc u hu => h u ⟨c, hc, hu⟩, fun h u hu => ?_⟩
  obtain ⟨c, hc, hu⟩ := hu
  exact h c hc u hu

/-- A UUID as displayed is clean. -/
lemma clean_display (u : Uuid) : Clean (String.ofList u.display) := by
  have hdigits : Wire.Clean "0123456789abcdef" := by decide
  have hhex : ∀ b, ∀ c ∈ Hex.encode b, c ≠ '"' ∧ c ≠ '\\' ∧ 0x20 ≤ c.toNat :=
    fun b c hc => hdigits c (Hex.mem_encode hc)
  intro c hc
  simp only [String.toList_ofList, Uuid.display, List.append_assoc, List.cons_append,
    List.mem_append, List.mem_cons] at hc
  rcases hc with hc | rfl | hc | rfl | hc | rfl | hc | rfl | hc
  all_goals first | exact hhex _ _ hc | decide

/-! ## The lexer on the text -/

/-- A member name with its colon and a space, in front of a text. -/
def key (name t : Str) : Str := quote :: (name ++ quote :: 0x3a :: 0x20 :: t)

/-- The end of one string, a comma, a member name and the start of another string. -/
def separator (name : Str) : Str := quote :: 0x2c :: 0x20 :: key name [quote]

/-- The text up to the start of the first string of the header. -/
def HeaderV1.front (h : HeaderV1) : Str :=
  0x7b :: key (utf16 "uuid") (quote :: (utf16 (String.ofList h.uuid.display) ++
    quote :: 0x2c :: 0x20 :: key (utf16 "message_length")
      (utf16 (toString h.messageLength.toNat) ++ 0x2c :: 0x20 :: key (utf16 "sender_id") [quote])))

/-- The tokens of the text up to the start of the first string. -/
def HeaderV1.frontTokens (h : HeaderV1) : List Token :=
  [.lbrace, .str (utf16 "uuid"), .colon, .str (utf16 (String.ofList h.uuid.display)), .comma,
    .str (utf16 "message_length"), .colon, .num (utf16 (toString h.messageLength.toNat)), .comma,
    .str (utf16 "sender_id"), .colon]

/-- The text is the front and the three strings, with separators between them. -/
lemma HeaderV1.utf16_toJsonString (h : HeaderV1) :
    utf16 h.toJsonString = h.front ++ (utf16 h.senderId ++ (separator (utf16 "tracker_id") ++
      (utf16 h.trackerId ++ (separator (utf16 "verification_data") ++
        (utf16 h.verificationData ++ [quote, 0x7d]))))) := by
  have happend : ∀ a u b n c s d t e v f : String,
      utf16 (a ++ u ++ b ++ n ++ c ++ s ++ d ++ t ++ e ++ v ++ f) =
        utf16 a ++ (utf16 u ++ (utf16 b ++ (utf16 n ++ (utf16 c ++
          (utf16 s ++ (utf16 d ++ (utf16 t ++ (utf16 e ++ (utf16 v ++ utf16 f))))))))) := by
    intros
    simp only [utf16_append, List.append_assoc]
  have huuid : utf16 "\x7b\"uuid\": \"" = 0x7b :: key (utf16 "uuid") [quote] := rfl
  have hlength : utf16 "\", \"message_length\": " =
      quote :: 0x2c :: 0x20 :: key (utf16 "message_length") [] := rfl
  have hsender : utf16 ", \"sender_id\": \"" = 0x2c :: 0x20 :: key (utf16 "sender_id") [quote] := rfl
  have htracker : utf16 "\", \"tracker_id\": \"" = separator (utf16 "tracker_id") := rfl
  have hverification : utf16 "\", \"verification_data\": \"" =
      separator (utf16 "verification_data") := rfl
  have hend : utf16 "\"\x7d" = [quote, 0x7d] := rfl
  have hkey : ∀ name s t, key name s ++ t = key name (s ++ t) := by
    intros
    simp [key]
  unfold toJsonString
  rw [happend, huuid, hlength, hsender, htracker, hverification, hend, front]
  simp only [List.cons_append, List.append_assoc, hkey, List.nil_append]

/-- The key of a member is read. -/
lemma run_key {name t ts l} (hname : ∀ u ∈ name, Plain u) (ht : run .out t = some (ts, l)) :
    run .out (key name t) = some (.str name :: .colon :: ts, l) :=
  run_quote (run_string hname (run_token rfl (run_space ht)))

/-- A numeral with a comma behind it is a number. -/
lemma run_numeral (n : ℕ) {t ts l} (ht : run .out t = some (ts, l)) :
    run .out (utf16 (toString n) ++ 0x2c :: t) =
      some (.num (utf16 (toString n)) :: .comma :: ts, l) := by
  have hword : ∀ u ∈ utf16 (toString n), isWord u = true := by
    intro u hu
    rw [isWord, isDigit_of_mem_utf16 hu]
    rfl
  exact run_wordToken (toString_ne_nil n) hword (wordToken_of_number (number_toString n)) rfl ht

/-- The lexer goes through the front and is at the start of the first string. -/
lemma HeaderV1.run_front (h : HeaderV1) : run .out h.front = some (h.frontTokens, .quoted []) := by
  have hname : ∀ {s : String}, Wire.Clean s → ∀ u ∈ utf16 s, Plain u := fun hs => plain_utf16.mpr hs
  have hsender : run .out (key (utf16 "sender_id") [quote]) =
      some ([.str (utf16 "sender_id"), .colon], .quoted []) :=
    run_key (hname (by decide)) (run_quote rfl)
  have hlength := run_key (hname (s := "message_length") (by decide))
    (run_numeral h.messageLength.toNat (run_space hsender))
  have huuid := run_string (hname (clean_display h.uuid))
    (run_token (u := 0x2c) (k := .comma) rfl (run_space hlength))
  exact run_token rfl (run_key (hname (by decide)) (run_quote huuid))

/-- A separator is read from inside a string, which it ends, and in no other way. -/
lemma run_separator {l name ts l'} (hname : ∀ u ∈ name, Plain u) (hout : run .out name = none)
    (h : run l (separator name) = some (ts, l')) :
    ∃ raw x, l = .quoted raw ∧ unescape raw = some x ∧
      ts = [.str x, .comma, .str name, .colon] ∧ l' = .quoted [] := by
  -- once the first quotation mark starts a string, the name stands outside of strings
  have hstart : ∀ raw, run (.quoted raw) (0x2c :: 0x20 :: key name [quote]) = none := by
    intro raw
    have hrest : ∀ raw, run (.quoted raw) (key name [quote]) = none := by
      intro raw
      have hnone : ∀ t, run .out (name ++ t) = none := fun t => by rw [run_append, hout]; rfl
      rw [key, run, lex, if_pos rfl]
      cases unescape raw with
      | none => rfl
      | some x => simp [hnone]
    have hplain : ∀ u, Plain u → ∀ raw t, run (.quoted raw) (u :: t) = run (.quoted (raw ++ [u])) t := by
      rintro u ⟨hq, hb, hc⟩ raw t
      rw [run, lex, if_neg hq, if_neg hb, if_neg (UInt16.not_lt.mpr hc)]
      simp
    rw [hplain 0x2c (by decide), hplain 0x20 (by decide), hrest]
  cases l with
  | out =>
    rw [separator, run] at h
    have hlex : lex .out quote = some ([], .quoted []) := rfl
    simp [hlex, hstart] at h
  | word w =>
    rw [separator, run] at h
    have hlex : lex (.word w) quote = (wordToken w).bind fun t => some ([t], .quoted []) := rfl
    cases hw : wordToken w <;> simp [hlex, hw, hstart] at h
  | escaped raw =>
    rw [separator, run] at h
    have hlex : lex (.escaped raw) quote = some ([], .quoted (raw ++ [backslash, quote])) := rfl
    simp [hlex, hstart] at h
  | quoted raw =>
    cases hx : unescape raw with
    | none =>
      rw [separator, run, lex, if_pos rfl, hx] at h
      cases h
    | some x =>
      have hkey : run .out (0x2c :: 0x20 :: key name [quote]) =
          some ([.comma, .str name, .colon], .quoted []) :=
        run_token rfl (run_space (run_key hname (run_quote rfl)))
      rw [separator, run_quoted hx hkey] at h
      cases h
      exact ⟨raw, x, rfl, hx, rfl, rfl⟩

/-- The end of the text is read from inside a string, which it ends, and in no other way. -/
lemma run_close {l ts l' ts'} (h : run l [quote, 0x7d] = some (ts, l')) (hflush : flush l' = some ts') :
    ∃ raw x, l = .quoted raw ∧ unescape raw = some x ∧ ts ++ ts' = [.str x, .rbrace] := by
  have hopen : ∀ raw, run (.quoted raw) [0x7d] = some ([], .quoted (raw ++ [0x7d])) :=
    fun raw => run_plain fun u hu => List.mem_singleton.mp hu ▸ by decide
  cases l with
  | out =>
    rw [run_quote (hopen [])] at h
    cases h
    cases hflush
  | word w =>
    rw [run] at h
    have hlex : lex (.word w) quote = (wordToken w).bind fun t => some ([t], .quoted []) := rfl
    cases hw : wordToken w with
    | none => simp [hlex, hw] at h
    | some t =>
      simp [hlex, hw, hopen] at h
      rw [← h.2] at hflush
      cases hflush
  | escaped raw =>
    have hlex : lex (.escaped raw) quote = some ([], .quoted (raw ++ [backslash, quote])) := rfl
    rw [run_cons hlex (hopen _)] at h
    cases h
    cases hflush
  | quoted raw =>
    cases hx : unescape raw with
    | none =>
      rw [run, lex, if_pos rfl, hx] at h
      cases h
    | some x =>
      have hbrace : run .out [0x7d] = some ([.rbrace], .out) := rfl
      rw [run_quoted hx hbrace] at h
      cases h
      cases hflush
      exact ⟨raw, x, rfl, hx, rfl⟩

/-! ## Strings that are not clean are not parsed back -/

/-- Strings between quotes in a text that is not plain are shorter than the text. -/
def ShorterThan (r y : Str) : Prop := (∀ u ∈ y, Plain u) ∨ ¬ (∀ u ∈ r, Plain u) ∧ y.length < r.length

/-- The strings completed in the text of a field, or at its end, are plain or shorter than the
    text. -/
lemma run_field {r ts raw x} (h : run (.quoted []) r = some (ts, .quoted raw))
    (hx : unescape raw = some x) : ∀ y, Token.str y ∈ ts ++ [.str x] → ShorterThan r y := by
  intro y hy
  by_cases hr : ∀ u ∈ r, Plain u
  · rw [run_plain hr] at h
    cases h
    rw [List.nil_append, unescape_of_not_mem fun hb => (hr _ hb).2.1 rfl] at hx
    cases hx
    rw [List.nil_append, List.mem_singleton] at hy
    cases hy
    exact .inl hr
  · have htame : (Lexer.quoted []).Tame := .inr (by simp)
    obtain ⟨htame', hsize, hts⟩ := run_bound htame h
    simp only [Lexer.size, List.length_nil, Nat.zero_add] at hsize hts
    rcases List.mem_append.mp hy with hy | hy
    · exact (hts y hy).imp_right fun hlt => ⟨hr, hlt⟩
    · rw [List.mem_singleton] at hy
      cases hy
      rcases unescape_eq_some hx with ⟨hb, rfl⟩ | hlt
      · exact .inl (htame'.resolve_left hb)
      · exact .inr ⟨hr, by omega⟩

/-- The lexer stops somewhere between the two parts of a text. -/
lemma run_append_eq_some {l s t ts l''} (h : run l (s ++ t) = some (ts, l'')) :
    ∃ ts₁ l' ts₂, run l s = some (ts₁, l') ∧ run l' t = some (ts₂, l'') ∧ ts = ts₁ ++ ts₂ := by
  rw [run_append, Option.bind_eq_some_iff] at h
  obtain ⟨⟨ts₁, l'⟩, hs, h⟩ := h
  obtain ⟨⟨ts₂, l₂⟩, ht, e⟩ := Option.map_eq_some_iff.mp h
  cases e
  exact ⟨ts₁, l', ts₂, hs, ht, rfl⟩

/-- The text of a field and the separator behind it. -/
lemma run_field_separator {r name t ts l} (hname : ∀ u ∈ name, Plain u) (hout : run .out name = none)
    (h : run (.quoted []) (r ++ (separator name ++ t)) = some (ts, l)) :
    ∃ ts₁ ts₂, ts = ts₁ ++ ts₂ ∧ (∀ y, Token.str y ∈ ts₁ → ShorterThan r y) ∧
      run (.quoted []) t = some (ts₂, l) := by
  obtain ⟨ts₁, l₁, ts', hr, hrest, rfl⟩ := run_append_eq_some h
  obtain ⟨ts₂, l₂, ts₃, hsep, ht, rfl⟩ := run_append_eq_some hrest
  obtain ⟨raw, x, rfl, hx, rfl, rfl⟩ := run_separator hname hout hsep
  refine ⟨ts₁ ++ [.str x, .comma, .str name, .colon], ts₃, by simp, fun y hy => ?_, ht⟩
  have hmem : Token.str y ∈ ts₁ ++ [.str x] ∨ y = name := by
    simp only [List.mem_append, List.mem_cons, List.not_mem_nil, or_false, reduceCtorEq, false_or,
      Token.str.injEq] at hy ⊢
    tauto
  rcases hmem with hy | rfl
  · exact run_field hr hx y hy
  · exact .inl hname

/-- The units of the three strings. -/
def HeaderV1.strings (h : HeaderV1) : List Str :=
  [utf16 h.senderId, utf16 h.trackerId, utf16 h.verificationData]

/-- The strings of the tokens of the text are plain or shorter than a string of the header that is
    not. -/
lemma HeaderV1.tokens_shorterThan {h : HeaderV1} {ts} (hts : tokens (utf16 h.toJsonString) = some ts) :
    ∀ y, Token.str y ∈ ts → ∃ r ∈ h.strings, ShorterThan r y := by
  have hname : ∀ {s : String}, Wire.Clean s → ∀ u ∈ utf16 s, Plain u := fun hs => plain_utf16.mpr hs
  simp only [tokens, Option.bind_eq_bind, Option.bind_eq_some_iff, Prod.exists] at hts
  obtain ⟨ts₀, l, hrun, ts', hflush, e⟩ := hts
  cases e
  rw [h.utf16_toJsonString, run_append_of _ h.run_front] at hrun
  obtain ⟨⟨tsFields, l'⟩, hrun, e⟩ := Option.map_eq_some_iff.mp hrun
  cases e
  obtain ⟨ts₁, _, rfl, hts₁, hrun⟩ := run_field_separator (hname (by decide)) rfl hrun
  obtain ⟨ts₂, _, rfl, hts₂, hrun⟩ := run_field_separator (hname (by decide)) rfl hrun
  obtain ⟨ts₃, l₃, ts₄, hr, hclose, rfl⟩ := run_append_eq_some hrun
  obtain ⟨raw, x, rfl, hx, e⟩ := run_close hclose hflush
  intro y hy
  have hfront : Token.str y ∈ h.frontTokens → ∀ u ∈ y, Plain u := by
    intro hy
    simp only [frontTokens, List.mem_cons, List.not_mem_nil, or_false, reduceCtorEq, false_or,
      Token.str.injEq] at hy
    rcases hy with rfl | rfl | rfl | rfl
    · exact hname (by decide)
    · exact hname (clean_display h.uuid)
    · exact hname (by decide)
    · exact hname (by decide)
  have hlast : Token.str y ∈ ts₄ ++ ts' → Token.str y ∈ [Token.str x] := by
    rw [e]
    simp
  simp only [List.append_assoc, List.mem_append] at hy hlast
  rcases hy with hy | hy | hy | hy | hy
  · exact ⟨_, List.mem_cons_self, .inl (hfront hy)⟩
  · exact ⟨_, List.mem_cons_self, hts₁ y hy⟩
  · exact ⟨_, List.mem_cons_of_mem _ List.mem_cons_self, hts₂ y hy⟩
  · refine ⟨utf16 h.verificationData, by simp [strings], run_field hr hx y ?_⟩
    exact List.mem_append_left _ hy
  · refine ⟨utf16 h.verificationData, by simp [strings], run_field hr hx y ?_⟩
    exact List.mem_append_right _ (hlast hy)

/-- A header whose strings are all in the parsed value is clean. -/
lemma HeaderV1.clean_of_hasString {h : HeaderV1} {v} (hv : parse (utf16 h.toJsonString) = some v)
    (hs : ∀ r ∈ h.strings, r = [] ∨ v.HasString r) : h.Clean := by
  obtain ⟨ts, hts, hparse⟩ := Option.bind_eq_some_iff.mp hv
  have hshorter : ∀ r ∈ h.strings, ¬ (∀ u ∈ r, Plain u) →
      ∃ r' ∈ h.strings, ¬ (∀ u ∈ r', Plain u) ∧ r.length < r'.length := by
    intro r hr hplain
    rcases hs r hr with rfl | hr'
    · exact absurd (by simp) hplain
    · obtain ⟨r', hmem, hlt⟩ := h.tokens_shorterThan hts r (parseTokens_from hparse r hr')
      exact ⟨r', hmem, hlt.resolve_left hplain⟩
  -- there would be longer and longer strings among the three
  have hall : ∀ r ∈ h.strings, ∀ u ∈ r, Plain u := by
    intro r hr
    by_contra hplain
    have hgrow : ∀ n : ℕ, ∃ r ∈ h.strings, ¬ (∀ u ∈ r, Plain u) ∧ n ≤ r.length := by
      intro n
      induction n with
      | zero => exact ⟨r, hr, hplain, Nat.zero_le _⟩
      | succ n ih =>
        obtain ⟨r₁, hr₁, hplain₁, hn⟩ := ih
        obtain ⟨r₂, hr₂, hplain₂, hlt⟩ := hshorter r₁ hr₁ hplain₁
        exact ⟨r₂, hr₂, hplain₂, by omega⟩
    obtain ⟨r', hr', _, hn⟩ := hgrow ((h.strings.map List.length).sum + 1)
    have := List.le_sum_of_mem (List.mem_map_of_mem (f := List.length) hr')
    omega
  simp only [strings, List.forall_mem_cons] at hall
  exact ⟨plain_utf16.mp hall.1, plain_utf16.mp hall.2.1, plain_utf16.mp hall.2.2.1⟩

/-! ## Clean strings are parsed back -/

/-- A clean field and the separator behind it. -/
lemma run_clean_separator {x name t ts l} (hx : ∀ u ∈ x, Plain u) (hname : ∀ u ∈ name, Plain u)
    (ht : run (.quoted []) t = some (ts, l)) :
    run (.quoted []) (x ++ (separator name ++ t)) =
      some (.str x :: .comma :: .str name :: .colon :: ts, l) := by
  have e : separator name ++ t = quote :: 0x2c :: 0x20 :: key name (quote :: t) := by
    simp [separator, key]
  rw [e]
  exact run_string hx (run_token rfl (run_space (run_key hname (run_quote ht))))

/-- The text of a clean header is parsed to the object of its fields. -/
lemma HeaderV1.parse_toJsonString {h : HeaderV1} (hc : h.Clean) :
    parse (utf16 h.toJsonString) = some h.json := by
  have hname : ∀ {s : String}, Wire.Clean s → ∀ u ∈ utf16 s, Plain u := fun hs => plain_utf16.mpr hs
  have hbrace : run .out [0x7d] = some ([.rbrace], .out) := rfl
  have hverification := run_string (hname hc.verificationData) hbrace
  have htracker := run_clean_separator (hname hc.trackerId)
    (hname (s := "verification_data") (by decide)) hverification
  have hsender := run_clean_separator (hname hc.senderId) (hname (s := "tracker_id") (by decide))
    htracker
  have hrun : run .out (utf16 h.toJsonString) = some (h.frontTokens ++
      [.str (utf16 h.senderId), .comma, .str (utf16 "tracker_id"), .colon, .str (utf16 h.trackerId),
        .comma, .str (utf16 "verification_data"), .colon, .str (utf16 h.verificationData), .rbrace],
      .out) := by
    rw [h.utf16_toJsonString, run_append_of _ h.run_front, hsender]
    rfl
  rw [parse, tokens, hrun]
  rfl

/-- A member that is found is in the object. -/
lemma hasString_of_get {name x ms} (h : get name ms = some (.str x)) : (Json.obj ms).HasString x := by
  obtain ⟨⟨k, v⟩, hfind, e⟩ := Option.map_eq_some_iff.mp h
  cases e
  exact .member (List.mem_reverse.mp (List.mem_of_find?_eq_some hfind)) .str

/-- A string that is read from an object is in it, or empty. -/
lemma ReadsMember.hasString {ms name x} (h : ReadsMember ms name x) :
    utf16 x = [] ∨ (Json.obj ms).HasString (utf16 x) := by
  rcases h with hm | rfl
  · exact .inr (.member hm .str)
  · exact .inl rfl

/-- A string that is read from an array is in it, or empty. -/
lemma ReadsElement.hasString {vs i x} (h : ReadsElement vs i x) :
    utf16 x = [] ∨ (Json.arr vs).HasString (utf16 x) := by
  rcases h with hm | rfl
  · exact .inr (.element (List.mem_of_getElem? hm) .str)
  · exact .inl rfl

/-- The text of a header shows the header, to `JSON.parse` and to `from_json_string` alike, exactly
    when its strings are clean. -/
theorem HeaderV1.toJsonString_roundTrip_iff {fromStr : String → Option HeaderV1}
    (hdoc : Documented fromStr) (h : HeaderV1) :
    ((∃ v, parse (utf16 h.toJsonString) = some v ∧ h.Shown v) ↔ h.Clean) ∧
      ((∃ h', fromJsonString fromStr h.toJsonString = some h' ∧ h.SameFields h') ↔ h.Clean) := by
  refine ⟨⟨?_, fun hc => ⟨h.json, parse_toJsonString hc, ?_⟩⟩, ⟨?_, fun hc => ?_⟩⟩
  · rintro ⟨v, hv, hshown⟩
    cases v with
    | obj ms =>
      obtain ⟨_, _, hsender, htracker, hverification⟩ := hshown
      refine clean_of_hasString hv fun r hr => .inr ?_
      simp only [strings, List.mem_cons, List.not_mem_nil, or_false] at hr
      rcases hr with rfl | rfl | rfl
      · exact hasString_of_get hsender
      · exact hasString_of_get htracker
      · exact hasString_of_get hverification
    | _ => cases hshown
  · exact ⟨rfl, ⟨_, rfl, number_toString _⟩, rfl, rfl, rfl⟩
  · rintro ⟨h', hh', hsame⟩
    obtain ⟨v, hv, hreads⟩ := hdoc.reads hh'
    obtain ⟨_, _, hs, ht, hd⟩ := hsame
    refine clean_of_hasString hv fun r hr => ?_
    simp only [strings, List.mem_cons, List.not_mem_nil, or_false, hs, ht, hd] at hr
    cases v with
    | obj ms =>
      obtain ⟨hsender, htracker, hverification⟩ := hreads
      rcases hr with rfl | rfl | rfl
      · exact hsender.hasString
      · exact htracker.hasString
      · exact hverification.hasString
    | arr vs =>
      obtain ⟨hsender, htracker, hverification⟩ := hreads
      rcases hr with rfl | rfl | rfl
      · exact hsender.hasString
      · exact htracker.hasString
      · exact hverification.hasString
    | _ => cases hreads
  · exact ⟨_, hdoc.complete (parse_toJsonString hc), rfl, rfl, rfl, rfl, rfl⟩

/-- A header with clean strings. -/
def cleanHeader : HeaderV1 where
  uuid := .nil
  messageLength := 2
  senderId := "127.0.0.1"
  trackerId := "tracker_1"
  verificationData := ""
  compression := .None

/-- A clean header survives. -/
theorem HeaderV1.toJsonString_roundTrip_cleanHeader :
    ((∃ v, parse (utf16 cleanHeader.toJsonString) = some v ∧ cleanHeader.Shown v) ↔ cleanHeader.Clean) ∧
      ((∃ h', fromJsonString standInFromStr cleanHeader.toJsonString = some h' ∧
        cleanHeader.SameFields h') ↔ cleanHeader.Clean) :=
  HeaderV1.toJsonString_roundTrip_iff documented_standInFromStr cleanHeader

/-- A header of alice whose verification data writes a second sender into the text. -/
def forgedFieldHeader : HeaderV1 where
  uuid := .nil
  messageLength := 2
  senderId := "alice"
  trackerId := ""
  verificationData := "\", \"sender_id\": \"mallory"
  compression := .None

/-- The string member of this name that the application is shown. -/
def shownString (name : Str) : Json → Option Str
  | .obj ms =>
    match get name ms with
    | some (.str x) => some x
    | _ => none
  | _ => none

/-- The application is shown mallory for alice. -/
theorem HeaderV1.toJsonString_forgedFieldHeader :
    (parse (utf16 forgedFieldHeader.toJsonString)).bind (shownString (utf16 "sender_id")) =
        some (utf16 "mallory") ∧
      ¬ ∃ v, parse (utf16 forgedFieldHeader.toJsonString) = some v ∧ forgedFieldHeader.Shown v := by
  have hmallory : (parse (utf16 forgedFieldHeader.toJsonString)).bind
      (shownString (utf16 "sender_id")) = some (utf16 "mallory") := by decide +kernel
  refine ⟨hmallory, ?_⟩
  rintro ⟨v, hv, hshown⟩
  rw [hv, Option.bind_some] at hmallory
  cases v with
  | obj ms =>
    obtain ⟨_, _, hsender, _, _⟩ := hshown
    rw [shownString, hsender] at hmallory
    exact absurd (Option.some.inj hmallory) (by decide)
  | _ => cases hshown

end ShardusNet.Wire
