import ShardusNet.Lib.JsonText
/-!
# Writing JSON texts

The text of a JSON value without white space, as ECMA-262 has `JSON.stringify` write it: in strings
a unit is written as it is, except for quotation marks, backslashes, control characters and
surrogates that are not part of a pair.

* `parse_write`: the text of a value whose numbers are number words is the text of that value.
-/

namespace JsonText

/-- The unit of a hexadecimal digit, in lower case. -/
def hexUnit (n : ℕ) : UInt16 := UInt16.ofNat (if n < 10 then 0x30 + n else 0x61 + (n - 10))

/-- `\u` and the four hexadecimal digits of a unit. -/
def unicodeEscape (u : UInt16) : Str :=
  [backslash, 0x75, hexUnit (u.toNat / 0x1000), hexUnit (u.toNat / 0x100 % 0x10),
    hexUnit (u.toNat / 0x10 % 0x10), hexUnit (u.toNat % 0x10)]

/-- A unit that is not a surrogate, in a string that is written. -/
def escapeUnit (u : UInt16) : Str :=
  if u = 0x08 then [backslash, 0x62]
  else if u = 0x09 then [backslash, 0x74]
  else if u = 0x0a then [backslash, 0x6e]
  else if u = 0x0c then [backslash, 0x66]
  else if u = 0x0d then [backslash, 0x72]
  else if u = quote ∨ u = backslash then [backslash, u]
  else if u < 0x20 then unicodeEscape u
  else [u]

/-- It is the first half of a surrogate pair. -/
def isHigh (u : UInt16) : Bool := 0xd800 ≤ u && u < 0xdc00

/-- It is the second half of a surrogate pair. -/
def isLow (u : UInt16) : Bool := 0xdc00 ≤ u && u < 0xe000

/-- The units of a string; whether the first of them is the second half of a pair. -/
def escapeUnits (paired : Bool) : Str → Str
  | [] => []
  | u :: s =>
    if isHigh u && s.head?.any isLow then u :: escapeUnits true s
    else if isLow u && paired then u :: escapeUnits false s
    else if isHigh u || isLow u then unicodeEscape u ++ escapeUnits false s
    else escapeUnit u ++ escapeUnits false s

/-- A string, between quotation marks. -/
def writeString (s : Str) : Str := quote :: (escapeUnits false s ++ [quote])

mutual

/-- The text of a value. -/
def write : Json → Str
  | .null => utf16 "null"
  | .bool true => utf16 "true"
  | .bool false => utf16 "false"
  | .num w => w
  | .str s => writeString s
  | .arr vs => 0x5b :: ([0x2c].intercalate (writeElements vs) ++ [0x5d])
  | .obj ms => 0x7b :: ([0x2c].intercalate (writeMembers ms) ++ [0x7d])

/-- The texts of the elements of an array. -/
def writeElements : List Json → List Str
  | [] => []
  | v :: vs => write v :: writeElements vs

/-- The texts of the members of an object. -/
def writeMembers : List (Str × Json) → List Str
  | [] => []
  | (name, v) :: ms => (writeString name ++ 0x3a :: write v) :: writeMembers ms

end

mutual

/-- The tokens of a value. -/
def tokensOf : Json → List Token
  | .null => [.null]
  | .bool b => [.bool b]
  | .num w => [.num w]
  | .str s => [.str s]
  | .arr vs => .lbracket :: ([.comma].intercalate (tokensOfElements vs) ++ [.rbracket])
  | .obj ms => .lbrace :: ([.comma].intercalate (tokensOfMembers ms) ++ [.rbrace])

/-- The tokens of each element of an array. -/
def tokensOfElements : List Json → List (List Token)
  | [] => []
  | v :: vs => tokensOf v :: tokensOfElements vs

/-- The tokens of each member of an object. -/
def tokensOfMembers : List (Str × Json) → List (List Token)
  | [] => []
  | (name, v) :: ms => (.str name :: .colon :: tokensOf v) :: tokensOfMembers ms

end

/-- The numbers of a value are number words. -/
inductive Json.Lexical : Json → Prop
  | null : Lexical .null
  | bool (b) : Lexical (.bool b)
  | num {w} (hne : w ≠ []) (hw : ∀ u ∈ w, isWord u = true) (hk : wordToken w = some (.num w)) :
    Lexical (.num w)
  | str (s) : Lexical (.str s)
  | arr {vs} (h : ∀ v ∈ vs, Lexical v) : Lexical (.arr vs)
  | obj {ms} (h : ∀ m ∈ ms, Lexical m.2) : Lexical (.obj ms)

/-! ## Strings -/

/-- A hexadecimal digit is read back, and needs no escape. -/
lemma hexValue_hexUnit {n : ℕ} (hn : n < 16) :
    hexValue (hexUnit n) = some n ∧ Plain (hexUnit n) := by
  have hall : ∀ n < 16, hexValue (hexUnit n) = some n ∧ Plain (hexUnit n) := by decide
  exact hall n hn

/-- Written between quotation marks, the text stands for the string. -/
structure Stands (s t : Str) : Prop where
  run_eq : ∀ raw, run (.quoted raw) t = some ([], .quoted (raw ++ t))
  unescape_eq : ∀ {rest x}, unescape rest = some x → unescape (t ++ rest) = some (s ++ x)

/-- Nothing stands for nothing. -/
lemma stands_nil : Stands [] [] where
  run_eq raw := by simp [run]
  unescape_eq h := h

/-- Texts stand for strings one after the other. -/
lemma Stands.append {s t s' t'} (h : Stands s t) (h' : Stands s' t') :
    Stands (s ++ s') (t ++ t') where
  run_eq raw := by
    rw [run_append_of _ (h.run_eq raw), h'.run_eq, List.append_assoc]
    rfl
  unescape_eq hx := by
    rw [List.append_assoc, List.append_assoc]
    exact h.unescape_eq (h'.unescape_eq hx)

/-- A plain unit stands for itself. -/
lemma stands_plain {u} (hu : Plain u) : Stands [u] [u] where
  run_eq raw := run_plain fun v hv => List.mem_singleton.mp hv ▸ hu
  unescape_eq hx := by
    rw [List.singleton_append, unescape_cons hu.2.1, hx]
    rfl

/-- A backslash and the unit after it stay in the string. -/
lemma run_backslash (raw e) : run (.quoted raw) [backslash, e] =
    some ([], .quoted (raw ++ [backslash, e])) := by
  have hlex : lex (.quoted raw) backslash = some ([], .escaped raw) := by
    rw [lex, if_neg (by decide), if_pos rfl]
  have hescaped : lex (.escaped raw) e = some ([], .quoted (raw ++ [backslash, e])) := rfl
  exact run_cons hlex (run_cons hescaped rfl)

/-- A short escape stands for its unit. -/
lemma stands_short {u e} (he : shortEscape e = some u) : Stands [u] [backslash, e] where
  run_eq raw := run_backslash raw e
  unescape_eq hx := by
    have hne : e ≠ 0x75 := by
      rintro rfl
      have hnone : shortEscape 0x75 = none := by decide
      rw [hnone] at he
      cases he
    rw [List.cons_append, List.singleton_append, unescape.eq_def]
    simp [hne, he, hx]

/-- A unicode escape stands for its unit. -/
lemma stands_unicodeEscape (u) : Stands [u] (unicodeEscape u) where
  run_eq raw := by
    have hlt := u.toNat_lt
    have hplain : ∀ v ∈ [hexUnit (u.toNat / 0x1000), hexUnit (u.toNat / 0x100 % 0x10),
        hexUnit (u.toNat / 0x10 % 0x10), hexUnit (u.toNat % 0x10)], Plain v := by
      simp only [List.forall_mem_cons, List.not_mem_nil, false_imp_iff, forall_true_iff, and_true]
      exact ⟨(hexValue_hexUnit (by omega)).2, (hexValue_hexUnit (by omega)).2,
        (hexValue_hexUnit (by omega)).2, (hexValue_hexUnit (by omega)).2⟩
    have happend := run_append_of [hexUnit (u.toNat / 0x1000), hexUnit (u.toNat / 0x100 % 0x10),
      hexUnit (u.toNat / 0x10 % 0x10), hexUnit (u.toNat % 0x10)] (run_backslash raw 0x75)
    rw [run_plain hplain, List.append_assoc] at happend
    exact happend
  unescape_eq hx := by
    have hlt := u.toNat_lt
    have hvalue : ((u.toNat / 0x1000 * 16 + u.toNat / 0x100 % 0x10) * 16 + u.toNat / 0x10 % 0x10) * 16 +
        u.toNat % 0x10 = u.toNat := by omega
    rw [unicodeEscape, List.cons_append, List.cons_append, unescape.eq_def]
    simp only [if_pos, List.cons_append, List.nil_append, Option.bind_eq_bind,
      (hexValue_hexUnit (show u.toNat / 0x1000 < 16 by omega)).1,
      (hexValue_hexUnit (show u.toNat / 0x100 % 0x10 < 16 by omega)).1,
      (hexValue_hexUnit (show u.toNat / 0x10 % 0x10 < 16 by omega)).1,
      (hexValue_hexUnit (show u.toNat % 0x10 < 16 by omega)).1, hx, Option.bind_some, hvalue,
      UInt16.ofNat_toNat]

/-- An escaped unit stands for the unit. -/
lemma stands_escapeUnit (u) : Stands [u] (escapeUnit u) := by
  unfold escapeUnit
  split
  case isTrue h => exact stands_short (h ▸ rfl)
  split
  case isTrue h => exact stands_short (h ▸ rfl)
  split
  case isTrue h => exact stands_short (h ▸ rfl)
  split
  case isTrue h => exact stands_short (h ▸ rfl)
  split
  case isTrue h => exact stands_short (h ▸ rfl)
  split
  case isTrue h => rcases h with rfl | rfl <;> exact stands_short rfl
  case isFalse hne =>
    split
    case isTrue h => exact stands_unicodeEscape u
    case isFalse h =>
      exact stands_plain ⟨fun e => hne (.inl e), fun e => hne (.inr e), UInt16.not_lt.mp h⟩

/-- A half of a pair needs no escape. -/
lemma plain_of_surrogate {u} (hu : isHigh u = true ∨ isLow u = true) : Plain u := by
  have hle : 0xd800 ≤ u := by
    simp only [isHigh, isLow, Bool.and_eq_true, decide_eq_true_eq] at hu
    rcases hu with h | h
    · exact h.1
    · exact UInt16.le_trans (by decide : (0xd800 : UInt16) ≤ 0xdc00) h.1
  refine ⟨?_, ?_, UInt16.le_trans (by decide : (0x20 : UInt16) ≤ 0xd800) hle⟩
  · rintro rfl
    revert hle
    decide
  · rintro rfl
    revert hle
    decide

/-- An escaped string stands for the string. -/
lemma stands_escapeUnits (paired s) : Stands s (escapeUnits paired s) := by
  induction s generalizing paired with
  | nil => exact stands_nil
  | cons u s ih =>
    unfold escapeUnits
    split
    case isTrue h =>
      rw [Bool.and_eq_true] at h
      exact (stands_plain (plain_of_surrogate (.inl h.1))).append (ih true)
    split
    case isTrue h =>
      rw [Bool.and_eq_true] at h
      exact (stands_plain (plain_of_surrogate (.inr h.1))).append (ih false)
    split
    case isTrue => exact (stands_unicodeEscape u).append (ih false)
    case isFalse => exact (stands_escapeUnit u).append (ih false)

/-! ## Tokens -/

/-- The tokens of a text that ends outside a string. -/
lemma tokens_of_run {s ts} (h : run .out s = some (ts, .out)) : tokens s = some ts := by
  rw [tokens, h]
  simp [flush]

/-- A written string is the token of the string. -/
lemma tokens_writeString (s : Str) : tokens (writeString s) = some [.str s] := by
  have hstands := stands_escapeUnits false s
  have hx : unescape (escapeUnits false s ++ []) = some (s ++ []) := hstands.unescape_eq rfl
  rw [List.append_nil, List.append_nil] at hx
  have hrun : run (.quoted []) (escapeUnits false s ++ [quote]) = some ([.str s], .out) := by
    rw [run_append_of _ (hstands.run_eq []), List.nil_append, run_quoted hx (t := []) rfl]
    rfl
  exact tokens_of_run (run_quote hrun)

/-- A unit of punctuation separates the tokens before and behind it. -/
lemma tokens_append {s ts u k t} (hs : tokens s = some ts) (hu : punctuation u = some k) :
    tokens (s ++ u :: t) = (tokens t).map fun ts' => ts ++ k :: ts' := by
  obtain ⟨hout, hword⟩ := lexOut_of_punctuation hu
  simp only [tokens, Option.bind_eq_bind, Option.bind_eq_some_iff] at hs
  obtain ⟨⟨ts₁, l⟩, hrun, ts₂, hflush, e⟩ := hs
  cases e
  have hlex : lex l u = some (ts₂ ++ [k], .out) := by
    cases l with
    | out =>
      cases hflush
      exact hout
    | word w =>
      obtain ⟨k', hk', rfl⟩ := Option.map_eq_some_iff.mp hflush
      rw [lex, hword, if_neg Bool.false_ne_true, hk', hout]
      rfl
    | quoted raw => cases hflush
    | escaped raw => cases hflush
  rw [tokens, run_append_of _ hrun, run, hlex, tokens]
  simp only [Option.bind_eq_bind, Option.bind_some]
  cases hrest : run .out t with
  | none => rfl
  | some r =>
    cases hflush' : flush r.2 with
    | none => simp [hflush']
    | some ts₃ => simp [hflush']

/-- A unit of punctuation in front is a token by itself. -/
lemma tokens_cons {u k t} (hu : punctuation u = some k) :
    tokens (u :: t) = (tokens t).map fun ts' => k :: ts' := by
  have hnil : tokens [] = some [] := rfl
  exact tokens_append hnil hu

/-- A word is one token. -/
lemma tokens_word {w k} (hne : w ≠ []) (hw : ∀ u ∈ w, isWord u = true) (hk : wordToken w = some k) :
    tokens w = some [k] := by
  obtain ⟨v, vs, e⟩ := List.exists_cons_of_ne_nil hne
  rw [e] at hw hk ⊢
  obtain ⟨hv, hvs⟩ := List.forall_mem_cons.mp hw
  have hfirst : lex .out v = some ([], .word [v]) := lexOut_of_isWord hv
  rw [tokens, run_cons hfirst (run_word hvs)]
  simp [flush, hk]

/-- Texts with commas between them, and a last unit of punctuation. -/
lemma tokens_intercalate {u k} (hu : punctuation u = some k) {ss tss}
    (h : List.Forall₂ (fun s ts => tokens s = some ts) ss tss) :
    tokens ([0x2c].intercalate ss ++ [u]) = some ([.comma].intercalate tss ++ [k]) := by
  have hlast : ∀ {s ts}, tokens s = some ts → tokens (s ++ [u]) = some (ts ++ [k]) := by
    intro s ts hs
    rw [tokens_append hs hu]
    rfl
  induction h with
  | nil => exact hlast (s := []) rfl
  | @cons s ts ss tss hs hss ih =>
    cases hss with
    | nil =>
      rw [List.intercalate_singleton, List.intercalate_singleton]
      exact hlast hs
    | cons hs' hss =>
      rw [List.intercalate_cons_cons, List.intercalate_cons_cons, List.append_assoc, List.append_assoc,
        List.singleton_append, tokens_append hs rfl, ih]
      simp

/-- The text of a value has the tokens of the value. -/
lemma tokens_write {j : Json} (h : j.Lexical) : tokens (write j) = some (tokensOf j) := by
  induction h with
  | null => rfl
  | bool b => cases b <;> rfl
  | num hne hw hk => exact tokens_word hne hw hk
  | str s => exact tokens_writeString s
  | @arr vs h ih =>
    have helements : List.Forall₂ (fun s ts => tokens s = some ts) (writeElements vs)
        (tokensOfElements vs) := by
      induction vs with
      | nil => exact .nil
      | cons v vs ihvs =>
        obtain ⟨hv, hvs⟩ := List.forall_mem_cons.mp ih
        exact .cons hv (ihvs (List.forall_mem_cons.mp h).2 hvs)
    rw [write, tokens_cons rfl, tokens_intercalate rfl helements, tokensOf]
    rfl
  | @obj ms h ih =>
    have hmembers : List.Forall₂ (fun s ts => tokens s = some ts) (writeMembers ms)
        (tokensOfMembers ms) := by
      induction ms with
      | nil => exact .nil
      | cons m ms ihms =>
        obtain ⟨hm, hms⟩ := List.forall_mem_cons.mp ih
        refine .cons ?_ (ihms (List.forall_mem_cons.mp h).2 hms)
        rw [tokens_append (tokens_writeString m.1) rfl, hm]
        rfl
    rw [write, tokens_cons rfl, tokens_intercalate rfl hmembers, tokensOf]
    rfl

/-! ## The parser -/

/-- A value begins with a token that closes no array. -/
lemma tokensOf_head (j : Json) : ∃ t ts, tokensOf j = t :: ts ∧ t ≠ .rbracket := by
  cases j <;> exact ⟨_, _, rfl, nofun⟩

/-- From where an element is expected, the parser goes through the tokens of a value to its end. -/
def Parses (j : Json) : Prop :=
  ∀ stack, (tokensOf j).foldlM parseStep (.value, stack) = some (.after j, stack)

/-- The elements of an array, with commas between them, and its end. -/
lemma foldlM_elements (acc) {vs} (stack) (hne : vs ≠ []) (h : ∀ v ∈ vs, Parses v) :
    ([Token.comma].intercalate (tokensOfElements vs) ++ [Token.rbracket]).foldlM parseStep
      (.value, .elements acc :: stack) = some (.after (.arr (acc ++ vs)), stack) := by
  induction vs generalizing acc with
  | nil => exact absurd rfl hne
  | cons v vs ih =>
    obtain ⟨hv, hvs⟩ := List.forall_mem_cons.mp h
    cases vs with
    | nil =>
      rw [tokensOfElements, tokensOfElements, List.intercalate_singleton, List.foldlM_append, hv]
      rfl
    | cons v' vs =>
      have hrest := ih (acc ++ [v]) (List.cons_ne_nil _ _) hvs
      rw [List.append_assoc, List.singleton_append] at hrest
      rw [tokensOfElements] at hrest ⊢
      rw [tokensOfElements, List.intercalate_cons_cons, List.append_assoc, List.append_assoc,
        List.foldlM_append, hv]
      exact hrest

/-- The members of an object, with commas between them, and its end. -/
lemma foldlM_members (acc) {ms : List (Str × Json)} (stack) (hne : ms ≠ [])
    (h : ∀ m ∈ ms, Parses m.2) :
    ([Token.comma].intercalate (tokensOfMembers ms) ++ [Token.rbrace]).foldlM parseStep
      (.name acc, stack) =
      some (.after (.obj (acc ++ ms)), stack) := by
  induction ms generalizing acc with
  | nil => exact absurd rfl hne
  | cons m ms ih =>
    obtain ⟨hm, hms⟩ := List.forall_mem_cons.mp h
    have hmember : ∀ ts, ((Token.str m.1 :: .colon :: tokensOf m.2) ++ ts).foldlM parseStep
        (.name acc, stack) =
        ts.foldlM parseStep (.after m.2, .member acc m.1 :: stack) := by
      intro ts
      show (tokensOf m.2 ++ ts).foldlM parseStep (.value, .member acc m.1 :: stack) = _
      rw [List.foldlM_append, hm]
      rfl
    cases ms with
    | nil =>
      rw [tokensOfMembers, tokensOfMembers, List.intercalate_singleton, hmember]
      rfl
    | cons m' ms =>
      have hrest := ih (acc ++ [m]) (List.cons_ne_nil _ _) hms
      rw [List.append_assoc, List.singleton_append] at hrest
      rw [tokensOfMembers] at hrest ⊢
      rw [tokensOfMembers, List.intercalate_cons_cons, List.append_assoc, List.append_assoc,
        hmember]
      exact hrest

/-- The first token stays the first. -/
lemma intercalate_head (sep t : Token) (ts tss) :
    ∃ ts', [sep].intercalate ((t :: ts) :: tss) = t :: ts' := by
  cases tss with
  | nil => exact ⟨_, List.intercalate_singleton⟩
  | cons ts' tss => exact ⟨_, List.intercalate_cons_cons⟩

/-- A value is parsed from its tokens, whatever follows them. -/
lemma parses {j : Json} (h : j.Lexical) : Parses j := by
  induction h with
  | null => exact fun stack => rfl
  | bool b => exact fun stack => rfl
  | num => exact fun stack => rfl
  | str s => exact fun stack => rfl
  | @arr vs _ ih =>
    intro stack
    rw [tokensOf, List.foldlM_cons]
    cases vs with
    | nil => rfl
    | cons v vs =>
      have helements := foldlM_elements [] stack (List.cons_ne_nil v vs) ih
      -- the first token of the first element is not the end of the array
      obtain ⟨t, ts, e, ht⟩ := tokensOf_head v
      obtain ⟨ts', e'⟩ := intercalate_head .comma t ts (tokensOfElements vs)
      have hstep : parseStep (.firstElement, stack) t =
          parseStep (.value, .elements [] :: stack) t := by
        cases t with
        | rbracket => exact absurd rfl ht
        | _ => rfl
      rw [tokensOfElements, e, e', List.cons_append, List.foldlM_cons, ← hstep] at helements
      rw [tokensOfElements, e, e']
      exact helements
  | @obj ms _ ih =>
    intro stack
    rw [tokensOf, List.foldlM_cons]
    cases ms with
    | nil => rfl
    | cons m ms =>
      have hmembers := foldlM_members [] stack (List.cons_ne_nil m ms) ih
      obtain ⟨ts', e'⟩ :=
        intercalate_head .comma (.str m.1) (.colon :: tokensOf m.2) (tokensOfMembers ms)
      rw [tokensOfMembers, e'] at hmembers ⊢
      exact hmembers

/-- The text of a value is the text of that value. -/
theorem parse_write {j : Json} (h : j.Lexical) : parse (write j) = some j := by
  rw [parse, tokens_write h, Option.bind_some, parseTokens, parses h]

end JsonText
