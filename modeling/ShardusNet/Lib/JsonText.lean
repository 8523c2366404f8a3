import Mathlib.Data.Rat.Defs
import Mathlib.Data.List.Basic
import Mathlib.Data.List.TakeWhile
import Mathlib.Tactic.Ring
/-!
# JSON texts

JSON as ECMA-404 defines it, over strings of UTF-16 units: a lexer that reads one unit at a time, a
parser that keeps a stack of open arrays and objects and reads one token at a time, and `parse`,
which runs one after the other. Members of an object are kept in order, repeated names included;
`get` takes the last one, as `JSON.parse` does. A number is kept as it is written; `number` is the
rational that it denotes, before any rounding.

* `run_plain`: inside quotes, plain units pass through the lexer as they are.
* `run_bound`: a string that is not plain is shorter than the text between its quotes.
* `parse_hasString`: every string of a parsed value is the string of a token.
-/

namespace JsonText

/-- A string of UTF-16 units. -/
abbrev Str := List UInt16

/-- The units of a character: one, or a surrogate pair. -/
def charUnits (c : Char) : Str :=
  if c.toNat < 0x10000 then [UInt16.ofNat c.toNat]
  else [UInt16.ofNat (0xd800 + (c.toNat - 0x10000) / 0x400),
    UInt16.ofNat (0xdc00 + (c.toNat - 0x10000) % 0x400)]

/-- The units of a string. -/
def utf16 (s : String) : Str := s.toList.flatMap charUnits

/-- JSON values. -/
inductive Json where
  | null
  | bool (b : Bool)
  | num (lexeme : Str)
  | str (s : Str)
  | arr (elements : List Json)
  | obj (members : List (Str × Json))

/-- Tokens. -/
inductive Token where
  | lbrace
  | rbrace
  | lbracket
  | rbracket
  | colon
  | comma
  | null
  | bool (b : Bool)
  | num (lexeme : Str)
  | str (s : Str)

/-! ## Strings and numbers -/

/-- The unit of a quotation mark. -/
def quote : UInt16 := 0x22

/-- The unit of a backslash. -/
def backslash : UInt16 := 0x5c

/-- Units that stand for themselves between quotes. -/
def Plain (u : UInt16) : Prop := u ≠ quote ∧ u ≠ backslash ∧ 0x20 ≤ u

/-- It can be decided. -/
instance : DecidablePred Plain := fun u => inferInstanceAs (Decidable (u ≠ quote ∧ u ≠ backslash ∧ 0x20 ≤ u))

/-- The value of a hexadecimal digit. -/
def hexValue (u : UInt16) : Option ℕ :=
  if 0x30 ≤ u ∧ u ≤ 0x39 then some (u.toNat - 0x30)
  else if 0x61 ≤ u ∧ u ≤ 0x66 then some (u.toNat - 0x61 + 10)
  else if 0x41 ≤ u ∧ u ≤ 0x46 then some (u.toNat - 0x41 + 10)
  else none

/-- The unit that a one-letter escape stands for. -/
def shortEscape (u : UInt16) : Option UInt16 :=
  if u = 0x22 ∨ u = 0x5c ∨ u = 0x2f then some u
  else if u = 0x62 then some 0x08
  else if u = 0x66 then some 0x0c
  else if u = 0x6e then some 0x0a
  else if u = 0x72 then some 0x0d
  else if u = 0x74 then some 0x09
  else none

/-- The string that the text between two quotes stands for. -/
def unescape : Str → Option Str
  | [] => some []
  | u :: s =>
    if u = backslash then
      match s with
      | [] => none
      | e :: s =>
        if e = 0x75 then
          match s with
          | a :: b :: c :: d :: s => do
            let a ← hexValue a
            let b ← hexValue b
            let c ← hexValue c
            let d ← hexValue d
            let x ← unescape s
            some (UInt16.ofNat (((a * 16 + b) * 16 + c) * 16 + d) :: x)
          | _ => none
        else do
          let e ← shortEscape e
          let x ← unescape s
          some (e :: x)
    else do
      let x ← unescape s
      some (u :: x)

/-- Decimal digits. -/
def isDigit (u : UInt16) : Bool := 0x30 ≤ u && u ≤ 0x39

/-- The number that decimal digits denote. -/
def digitsValue (ds : Str) : ℕ := ds.foldl (fun n u => 10 * n + (u.toNat - 0x30)) 0

/-- The digits in front, at least one of them, and the rest. -/
def digits (s : Str) : Option (Str × Str) :=
  if s.takeWhile isDigit = [] then none else some (s.takeWhile isDigit, s.dropWhile isDigit)

/-- The digits before the decimal point: no zero in front of others. -/
def wholePart (s : Str) : Option (ℕ × Str) := do
  let (ds, s) ← digits s
  if ds.head? = some 0x30 ∧ ds.length ≠ 1 then none else some (digitsValue ds, s)

/-- The decimal point and the digits after it, if it is there. -/
def fraction : Str → Option (ℚ × Str)
  | [] => some (0, [])
  | u :: s =>
    if u = 0x2e then do
      let (ds, s) ← digits s
      some (digitsValue ds / 10 ^ ds.length, s)
    else some (0, u :: s)

/-- The exponent, if it is there, up to the end. -/
def exponent : Str → Option ℤ
  | [] => some 0
  | u :: s =>
    if u = 0x65 ∨ u = 0x45 then do
      let (ds, r) ← digits (if s.head? = some 0x2b ∨ s.head? = some 0x2d then s.tail else s)
      if r ≠ [] then none
      else if s.head? = some 0x2d then some (-digitsValue ds)
      else some (digitsValue ds)
    else none

/-- The number that a word denotes. -/
def number (w : Str) : Option ℚ := do
  let (whole, s) ← wholePart (if w.head? = some 0x2d then w.tail else w)
  let (frac, s) ← fraction s
  let e ← exponent s
  let q := (whole + frac) * 10 ^ e
  some (if w.head? = some 0x2d then -q else q)

/-! ## The lexer -/

/-- What the lexer is inside of: nothing, a number or a literal name, a string, an escape in a
    string. -/
inductive Lexer where
  | out
  | word (w : Str)
  | quoted (raw : Str)
  | escaped (raw : Str)

/-- White space. -/
def isSpace (u : UInt16) : Bool := u = 0x20 || u = 0x09 || u = 0x0a || u = 0x0d

/-- Units of numbers and literal names. -/
def isWord (u : UInt16) : Bool :=
  isDigit u || (0x61 ≤ u && u ≤ 0x7a) || (0x41 ≤ u && u ≤ 0x5a) || u = 0x2b || u = 0x2d || u = 0x2e

/-- The tokens of one unit. -/
def punctuation (u : UInt16) : Option Token :=
  if u = 0x7b then some .lbrace
  else if u = 0x7d then some .rbrace
  else if u = 0x5b then some .lbracket
  else if u = 0x5d then some .rbracket
  else if u = 0x3a then some .colon
  else if u = 0x2c then some .comma
  else none

/-- The token of a literal name or a number. -/
def wordToken (w : Str) : Option Token :=
  if w = utf16 "null" then some .null
  else if w = utf16 "true" then some (.bool true)
  else if w = utf16 "false" then some (.bool false)
  else if (number w).isSome then some (.num w)
  else none

/-- One unit between tokens. -/
def lexOut (u : UInt16) : Option (List Token × Lexer) :=
  if isSpace u then some ([], .out)
  else if u = quote then some ([], .quoted [])
  else if isWord u then some ([], .word [u])
  else (punctuation u).map fun t => ([t], .out)

/-- One unit. -/
def lex : Lexer → UInt16 → Option (List Token × Lexer)
  | .out, u => lexOut u
  | .word w, u =>
    if isWord u then some ([], .word (w ++ [u]))
    else do
      let t ← wordToken w
      let (ts, l) ← lexOut u
      some (t :: ts, l)
  | .quoted raw, u =>
    if u = quote then (unescape raw).map fun x => ([.str x], .out)
    else if u = backslash then some ([], .escaped raw)
    else if u < 0x20 then none
    else some ([], .quoted (raw ++ [u]))
  | .escaped raw, u => some ([], .quoted (raw ++ [backslash, u]))

/-- The tokens of a text, and what the lexer is inside of at its end. -/
def run (l : Lexer) : Str → Option (List Token × Lexer)
  | [] => some ([], l)
  | u :: s => do
    let (ts, l) ← lex l u
    let (ts', l) ← run l s
    some (ts ++ ts', l)

/-- The last token, when the text ends here. -/
def flush : Lexer → Option (List Token)
  | .out => some []
  | .word w => (wordToken w).map fun t => [t]
  | _ => none

/-- The tokens of a whole text. -/
def tokens (s : Str) : Option (List Token) := do
  let (ts, l) ← run .out s
  let ts' ← flush l
  some (ts ++ ts')

/-! ## The parser -/

/-- What is open: an array with its elements so far, an object with its members so far and the name
    of the one being read. -/
inductive Frame where
  | elements (vs : List Json)
  | member (ms : List (Str × Json)) (name : Str)

/-- What the parser is at: a value, the first element or `]`, the first name or `}`, a name, the
    colon behind a name, the end of a value. -/
inductive Cursor where
  | value
  | firstElement
  | firstName
  | name (ms : List (Str × Json))
  | colon (ms : List (Str × Json)) (name : Str)
  | after (v : Json)

/-- One token where a value starts. -/
def parseValue (stack : List Frame) : Token → Option (Cursor × List Frame)
  | .null => some (.after .null, stack)
  | .bool b => some (.after (.bool b), stack)
  | .num w => some (.after (.num w), stack)
  | .str x => some (.after (.str x), stack)
  | .lbrace => some (.firstName, stack)
  | .lbracket => some (.firstElement, stack)
  | _ => none

/-- One token. -/
def parseStep : Cursor × List Frame → Token → Option (Cursor × List Frame)
  | (.value, stack), t => parseValue stack t
  | (.firstElement, stack), .rbracket => some (.after (.arr []), stack)
  | (.firstElement, stack), t => parseValue (.elements [] :: stack) t
  | (.firstName, stack), .rbrace => some (.after (.obj []), stack)
  | (.firstName, stack), .str x => some (.colon [] x, stack)
  | (.name ms, stack), .str x => some (.colon ms x, stack)
  | (.colon ms x, stack), .colon => some (.value, .member ms x :: stack)
  | (.after v, .elements vs :: stack), .comma => some (.value, .elements (vs ++ [v]) :: stack)
  | (.after v, .elements vs :: stack), .rbracket => some (.after (.arr (vs ++ [v])), stack)
  | (.after v, .member ms x :: stack), .comma => some (.name (ms ++ [(x, v)]), stack)
  | (.after v, .member ms x :: stack), .rbrace => some (.after (.obj (ms ++ [(x, v)])), stack)
  | _, _ => none

/-- The value of a list of tokens. -/
def parseTokens (ts : List Token) : Option Json :=
  match ts.foldlM parseStep (.value, []) with
  | some (.after v, []) => some v
  | _ => none

/-- The value of a text. -/
def parse (s : Str) : Option Json := (tokens s).bind parseTokens

/-- The member of this name: the last one, when there are several. -/
def get (name : Str) (ms : List (Str × Json)) : Option Json :=
  (ms.reverse.find? fun m => m.1 = name).map Prod.snd

/-! ## What the lexer does with quoted text -/

/-- The lexer goes through the second text from where the first leaves it. -/
lemma run_append {l s t} :
    run l (s ++ t) = (run l s).bind fun (ts, l) => (run l t).map fun (ts', l) => (ts ++ ts', l) := by
  induction s generalizing l with
  | nil => simp [run]
  | cons u s ih =>
    simp only [List.cons_append, run, ih]
    cases lex l u with
    | none => rfl
    | some r =>
      obtain ⟨ts, l⟩ := r
      cases h : run l s with
      | none => simp [h]
      | some r =>
        obtain ⟨ts', l'⟩ := r
        cases h' : run l' t <;> simp [h, h']

/-- The lexer on a text with a known first part. -/
lemma run_append_of {l s ts l'} (t) (h : run l s = some (ts, l')) :
    run l (s ++ t) = (run l' t).map fun (ts', l'') => (ts ++ ts', l'') := by
  rw [run_append, h]
  rfl

/-- Plain units pass as they are. -/
lemma run_plain {a s} (hs : ∀ u ∈ s, Plain u) : run (.quoted a) s = some ([], .quoted (a ++ s)) := by
  induction s generalizing a with
  | nil => simp [run]
  | cons u s ih =>
    obtain ⟨⟨hq, hb, hc⟩, hs⟩ := List.forall_mem_cons.mp hs
    have hlex : lex (.quoted a) u = some ([], .quoted (a ++ [u])) := by
      simp [lex, hq, hb, UInt16.not_lt.mpr hc]
    simp [run, hlex, ih hs]

/-- A unit that is not a backslash stands for itself. -/
lemma unescape_cons {u s} (hu : u ≠ backslash) : unescape (u :: s) = (unescape s).map (u :: ·) := by
  rw [unescape.eq_def]
  simp only [if_neg hu]
  cases unescape s <;> rfl

/-- Text without backslashes stands for itself. -/
lemma unescape_of_not_mem {s} (hs : backslash ∉ s) : unescape s = some s := by
  induction s with
  | nil => rfl
  | cons u s ih =>
    rw [List.mem_cons, not_or] at hs
    rw [unescape_cons (Ne.symm hs.1), ih hs.2]
    rfl

/-- One unit and then the rest. -/
lemma run_cons {l u s ts l' ts' l''} (h : lex l u = some (ts, l')) (h' : run l' s = some (ts', l'')) :
    run l (u :: s) = some (ts ++ ts', l'') := by
  rw [run, h]
  simp [h']

/-- A space is skipped. -/
lemma run_space {t r} (ht : run .out t = some r) : run .out (0x20 :: t) = some r :=
  run_cons (l := .out) (u := 0x20) rfl ht

/-- A quote begins a string. -/
lemma run_quote {t r} (ht : run (.quoted []) t = some r) : run .out (quote :: t) = some r :=
  run_cons (l := .out) (u := quote) rfl ht

/-- A unit that is a token by itself. -/
lemma run_token {u k t ts l} (hu : lexOut u = some ([k], .out)) (ht : run .out t = some (ts, l)) :
    run .out (u :: t) = some (k :: ts, l) :=
  run_cons (l := .out) hu ht

/-- A quotation mark ends the string that the quoted text stands for. -/
lemma run_quoted {raw x t ts l} (hx : unescape raw = some x) (ht : run .out t = some (ts, l)) :
    run (.quoted raw) (quote :: t) = some (.str x :: ts, l) := by
  have hlex : lex (.quoted raw) quote = some ([.str x], .out) := by
    rw [lex, if_pos rfl, hx]
    rfl
  exact run_cons hlex ht

/-- Quoted text without units to escape is the string. -/
lemma run_string {x t ts l} (hx : ∀ u ∈ x, Plain u) (ht : run .out t = some (ts, l)) :
    run (.quoted []) (x ++ quote :: t) = some (.str x :: ts, l) := by
  have hx' : unescape ([] ++ x) = some x := unescape_of_not_mem fun hb => (hx _ hb).2.1 rfl
  rw [run_append_of _ (run_plain hx), run_quoted hx' ht]
  rfl

/-- The units of numbers and literal names are read as a word. -/
lemma run_word {w s} (hs : ∀ u ∈ s, isWord u = true) :
    run (.word w) s = some ([], .word (w ++ s)) := by
  induction s generalizing w with
  | nil => simp [run]
  | cons u s ih =>
    obtain ⟨hu, hs⟩ := List.forall_mem_cons.mp hs
    have hlex : lex (.word w) u = some ([], .word (w ++ [u])) := by rw [lex, if_pos hu]
    simpa using run_cons hlex (ih hs)

/-- Such a unit starts a word. -/
lemma lexOut_of_isWord {u} (hu : isWord u = true) : lexOut u = some ([], .word [u]) := by
  have hspace : ¬ isSpace u = true := by
    intro hs
    simp only [isSpace, Bool.or_eq_true, decide_eq_true_eq] at hs
    rcases hs with ((rfl | rfl) | rfl) | rfl <;> revert hu <;> decide
  have hquote : u ≠ quote := by
    rintro rfl
    revert hu
    decide
  rw [lexOut, if_neg hspace, if_neg hquote, if_pos hu]

/-- A unit of punctuation is a token by itself. -/
lemma lexOut_of_punctuation {u k} (hu : punctuation u = some k) :
    lexOut u = some ([k], .out) ∧ isWord u = false := by
  unfold punctuation at hu
  repeat' split at hu
  all_goals try cases hu
  all_goals
    subst u
    exact ⟨rfl, rfl⟩

/-- A word is read as its token at the unit of punctuation behind it. -/
lemma run_wordToken {w k u k' t ts l} (hne : w ≠ []) (hw : ∀ u ∈ w, isWord u = true)
    (hk : wordToken w = some k) (hu : punctuation u = some k') (ht : run .out t = some (ts, l)) :
    run .out (w ++ u :: t) = some (k :: k' :: ts, l) := by
  obtain ⟨hout, hword⟩ := lexOut_of_punctuation hu
  have hlex : lex (.word w) u = some ([k, k'], .out) := by
    rw [lex, hword, if_neg Bool.false_ne_true, hk, hout]
    rfl
  obtain ⟨v, vs, e⟩ := List.exists_cons_of_ne_nil hne
  rw [e] at hw hlex ⊢
  obtain ⟨hv, hvs⟩ := List.forall_mem_cons.mp hw
  have hrest : run (.word [v]) (vs ++ u :: t) = some (k :: k' :: ts, l) := by
    rw [run_append_of _ (run_word hvs), List.singleton_append, run_cons hlex ht]
    rfl
  have hfirst : lex .out v = some ([], .word [v]) := lexOut_of_isWord hv
  exact run_cons hfirst hrest

/-- Text with a backslash stands for a shorter string, and text without one for itself. -/
lemma unescape_eq_some {s x} (h : unescape s = some x) : backslash ∉ s ∧ x = s ∨ x.length < s.length := by
  have hle : ∀ {y t : Str}, backslash ∉ t ∧ y = t ∨ y.length < t.length → y.length ≤ t.length := by
    rintro y t (⟨_, rfl⟩ | h)
    · exact le_refl _
    · exact le_of_lt h
  induction s using unescape.induct generalizing x with
  | case1 =>
    cases h
    exact .inl ⟨List.not_mem_nil, rfl⟩
  | case2 => simp [unescape] at h
  | case3 a b c d s ih =>
    rw [unescape.eq_def] at h
    simp only [if_pos, Option.bind_eq_bind, Option.bind_eq_some_iff] at h
    obtain ⟨a', _, b', _, c', _, d', _, y, hy, e⟩ := h
    cases e
    have := hle (ih hy)
    refine .inr ?_
    simp only [List.length_cons]
    omega
  | case4 s hs =>
    rw [unescape.eq_def] at h
    simp only [if_pos] at h
    cases h
  | case5 e s he ih =>
    rw [unescape.eq_def] at h
    simp only [if_pos, if_neg he, Option.bind_eq_bind, Option.bind_eq_some_iff] at h
    obtain ⟨e', _, y, hy, e⟩ := h
    cases e
    have := hle (ih hy)
    refine .inr ?_
    simp only [List.length_cons]
    omega
  | case6 u s hu ih =>
    rw [unescape_cons hu] at h
    obtain ⟨y, hy, rfl⟩ := Option.map_eq_some_iff.mp h
    rcases ih hy with ⟨hs, rfl⟩ | hlt
    · exact .inl ⟨by rw [List.mem_cons, not_or]; exact ⟨Ne.symm hu, hs⟩, rfl⟩
    · refine .inr ?_
      simp only [List.length_cons]
      omega

/-- The length of the quoted text read so far. -/
def Lexer.size : Lexer → ℕ
  | .out => 0
  | .word _ => 0
  | .quoted raw => raw.length
  | .escaped raw => raw.length + 1

/-- Quoted text without a backslash is plain. -/
def Lexer.Tame : Lexer → Prop
  | .quoted raw => backslash ∈ raw ∨ ∀ u ∈ raw, Plain u
  | _ => True

/-- Between tokens, one unit opens at most an empty string and completes none. -/
lemma lexOut_bound {u ts l} (h : lexOut u = some (ts, l)) :
    l.Tame ∧ l.size = 0 ∧ ∀ x, Token.str x ∉ ts := by
  unfold lexOut at h
  split at h
  case isTrue => cases h; exact ⟨trivial, rfl, fun x => List.not_mem_nil⟩
  case isFalse =>
    split at h
    case isTrue => cases h; exact ⟨.inr (by simp), rfl, fun x => List.not_mem_nil⟩
    case isFalse =>
      split at h
      case isTrue => cases h; exact ⟨trivial, rfl, fun x => List.not_mem_nil⟩
      case isFalse =>
        obtain ⟨t, ht, e⟩ := Option.map_eq_some_iff.mp h
        cases e
        refine ⟨trivial, rfl, fun x hx => ?_⟩
        rw [List.mem_singleton] at hx
        subst hx
        unfold punctuation at ht
        repeat' split at ht
        all_goals cases ht

/-- A word that denotes a number is a number. -/
lemma wordToken_of_number {w q} (h : number w = some q) : wordToken w = some (.num w) := by
  have hne : ∀ {w'}, number w' = none → w ≠ w' := by
    rintro w' hw' rfl
    rw [hw'] at h
    cases h
  rw [wordToken, if_neg (hne (by decide)), if_neg (hne (by decide)), if_neg (hne (by decide)), h]
  rfl

/-- A word is never a string. -/
lemma wordToken_ne_str {w x} : wordToken w ≠ some (.str x) := by
  unfold wordToken
  repeat' split
  all_goals simp

/-- One unit makes the quoted text longer by one at most, and completes only strings that are plain
    or shorter than their quoted text. -/
lemma lex_bound {l u ts l'} (hl : l.Tame) (h : lex l u = some (ts, l')) :
    l'.Tame ∧ l'.size ≤ l.size + 1 ∧
      ∀ x, Token.str x ∈ ts → (∀ u ∈ x, Plain u) ∨ x.length < l.size := by
  cases l with
  | out =>
    obtain ⟨htame, hsize, hts⟩ := lexOut_bound h
    exact ⟨htame, by omega, fun x hx => absurd hx (hts x)⟩
  | word w =>
    rw [lex] at h
    split at h
    case isTrue => cases h; exact ⟨trivial, Nat.zero_le _, fun x hx => absurd hx List.not_mem_nil⟩
    case isFalse =>
      simp only [Option.bind_eq_bind, Option.bind_eq_some_iff, Prod.exists] at h
      obtain ⟨t, ht, ts', l'', hout, e⟩ := h
      cases e
      obtain ⟨htame, hsize, hts⟩ := lexOut_bound hout
      refine ⟨htame, by omega, fun x hx => ?_⟩
      rcases List.mem_cons.mp hx with rfl | hx
      · exact absurd ht wordToken_ne_str
      · exact absurd hx (hts x)
  | quoted raw =>
    rw [lex] at h
    split at h
    case isTrue =>
      obtain ⟨y, hy, e⟩ := Option.map_eq_some_iff.mp h
      cases e
      refine ⟨trivial, Nat.zero_le _, fun x hx => ?_⟩
      rw [List.mem_singleton] at hx
      cases hx
      rcases unescape_eq_some hy with ⟨hb, rfl⟩ | hlt
      · exact .inl (hl.resolve_left hb)
      · exact .inr hlt
    case isFalse hq =>
      split at h
      case isTrue => cases h; exact ⟨trivial, le_refl _, fun x hx => absurd hx List.not_mem_nil⟩
      case isFalse hb =>
        split at h
        case isTrue => cases h
        case isFalse hc =>
          cases h
          refine ⟨?_, by simp [Lexer.size], fun x hx => absurd hx List.not_mem_nil⟩
          rcases hl with hl | hl
          · exact .inl (List.mem_append_left _ hl)
          · refine .inr fun v hv => ?_
            rcases List.mem_append.mp hv with hv | hv
            · exact hl v hv
            · rw [List.mem_singleton] at hv
              subst hv
              exact ⟨hq, hb, UInt16.not_lt.mp hc⟩
  | escaped raw =>
    cases h
    refine ⟨.inl ?_, by simp [Lexer.size], fun x hx => absurd hx List.not_mem_nil⟩
    simp

/-- A text completes only strings that are plain or shorter than the quoted text. -/
lemma run_bound {l s ts l'} (hl : l.Tame) (h : run l s = some (ts, l')) :
    l'.Tame ∧ l'.size ≤ l.size + s.length ∧
      ∀ x, Token.str x ∈ ts → (∀ u ∈ x, Plain u) ∨ x.length < l.size + s.length := by
  induction s generalizing l ts with
  | nil =>
    cases h
    exact ⟨hl, le_refl _, fun x hx => absurd hx List.not_mem_nil⟩
  | cons u s ih =>
    simp only [run, Option.bind_eq_bind, Option.bind_eq_some_iff, Prod.exists] at h
    obtain ⟨ts₁, l₁, h₁, ts₂, l₂, h₂, e⟩ := h
    cases e
    obtain ⟨htame₁, hsize₁, hts₁⟩ := lex_bound hl h₁
    obtain ⟨htame₂, hsize₂, hts₂⟩ := ih htame₁ h₂
    rw [List.length_cons]
    refine ⟨htame₂, by omega, fun x hx => ?_⟩
    rcases List.mem_append.mp hx with hx | hx
    · rcases hts₁ x hx with hp | hlt
      · exact .inl hp
      · exact .inr (by omega)
    · rcases hts₂ x hx with hp | hlt
      · exact .inl hp
      · exact .inr (by omega)

/-! ## The strings of a value -/

/-- The string is in the value, at any depth. -/
inductive Json.HasString (x : Str) : Json → Prop
  | str : HasString x (.str x)
  | element {v vs} : v ∈ vs → HasString x v → HasString x (.arr vs)
  | member {k v ms} : (k, v) ∈ ms → HasString x v → HasString x (.obj ms)

/-- Every string of the value is among the strings of the tokens. -/
def Json.From (ts : List Token) (v : Json) : Prop := ∀ x, v.HasString x → Token.str x ∈ ts

/-- Every value held by the parser is from the tokens. -/
def Held (ts : List Token) : Cursor × List Frame → Prop
  | (c, stack) =>
    (match c with
      | .name ms => ∀ m ∈ ms, m.2.From ts
      | .colon ms _ => ∀ m ∈ ms, m.2.From ts
      | .after v => v.From ts
      | _ => True) ∧
    ∀ f ∈ stack, match f with
      | .elements vs => ∀ v ∈ vs, v.From ts
      | .member ms _ => ∀ m ∈ ms, m.2.From ts

/-- An array is from the tokens when its elements are. -/
lemma From_arr {ts vs} (h : ∀ v ∈ vs, Json.From ts v) : (Json.arr vs).From ts := by
  intro x hx
  cases hx with
  | element hv hx => exact h _ hv x hx

/-- An object is from the tokens when the values of its members are. -/
lemma From_obj {ts} {ms : List (Str × Json)} (h : ∀ m ∈ ms, m.2.From ts) : (Json.obj ms).From ts := by
  intro x hx
  cases hx with
  | member hm hx => exact h _ hm x hx

/-- What holds of a list and of one more item holds of the longer list. -/
lemma forall_mem_concat {α} {p : α → Prop} {l : List α} {a} (hl : ∀ b ∈ l, p b) (ha : p a) :
    ∀ b ∈ l ++ [a], p b := by
  intro b hb
  rcases List.mem_append.mp hb with hb | hb
  · exact hl b hb
  · rw [List.mem_singleton.mp hb]
    exact ha

/-- A value that starts holds only strings of the tokens. -/
lemma parseValue_held {ts stack t r} (ht : t ∈ ts) (hs : Held ts (.value, stack))
    (h : parseValue stack t = some r) : Held ts r := by
  cases t <;> cases h
  case null => exact ⟨(by rintro x ⟨⟩), hs.2⟩
  case bool => exact ⟨(by rintro x ⟨⟩), hs.2⟩
  case num => exact ⟨(by rintro x ⟨⟩), hs.2⟩
  case str x =>
    refine ⟨fun y hy => ?_, hs.2⟩
    cases hy
    exact ht
  case lbrace => exact ⟨trivial, hs.2⟩
  case lbracket => exact ⟨trivial, hs.2⟩

/-- One token keeps the values held from the tokens. -/
lemma parseStep_held {ts c t r} (ht : t ∈ ts) (hc : Held ts c) (h : parseStep c t = some r) :
    Held ts r := by
  unfold parseStep at h
  split at h
  case h_1 => exact parseValue_held ht hc h
  case h_2 => cases h; exact ⟨From_arr (by simp), hc.2⟩
  case h_3 => exact parseValue_held ht ⟨trivial, List.forall_mem_cons.mpr ⟨by simp, hc.2⟩⟩ h
  case h_4 => cases h; exact ⟨From_obj (by simp), hc.2⟩
  case h_5 => cases h; exact ⟨by simp, hc.2⟩
  case h_6 => cases h; exact hc
  case h_7 => cases h; exact ⟨trivial, List.forall_mem_cons.mpr hc⟩
  case h_8 =>
    cases h
    obtain ⟨hv, hstack⟩ := hc
    obtain ⟨hvs, hstack⟩ := List.forall_mem_cons.mp hstack
    exact ⟨trivial, List.forall_mem_cons.mpr ⟨forall_mem_concat hvs hv, hstack⟩⟩
  case h_9 =>
    cases h
    obtain ⟨hv, hstack⟩ := hc
    obtain ⟨hvs, hstack⟩ := List.forall_mem_cons.mp hstack
    exact ⟨From_arr (forall_mem_concat hvs hv), hstack⟩
  case h_10 =>
    cases h
    obtain ⟨hv, hstack⟩ := hc
    obtain ⟨hms, hstack⟩ := List.forall_mem_cons.mp hstack
    exact ⟨forall_mem_concat hms hv, hstack⟩
  case h_11 =>
    cases h
    obtain ⟨hv, hstack⟩ := hc
    obtain ⟨hms, hstack⟩ := List.forall_mem_cons.mp hstack
    exact ⟨From_obj (forall_mem_concat hms hv), hstack⟩
  case h_12 => cases h

/-- A run of the parser keeps the values held from the tokens. -/
lemma foldlM_held {ts ts' : List Token} {c r} (hts : ∀ t ∈ ts', t ∈ ts) (hc : Held ts c)
    (h : ts'.foldlM parseStep c = some r) : Held ts r := by
  induction ts' generalizing c with
  | nil =>
    cases h
    exact hc
  | cons t ts' ih =>
    obtain ⟨ht, hts⟩ := List.forall_mem_cons.mp hts
    rw [List.foldlM_cons, Option.bind_eq_bind, Option.bind_eq_some_iff] at h
    obtain ⟨c', hstep, h⟩ := h
    exact ih hts (parseStep_held ht hc hstep) h

/-- Every string of the value of a list of tokens is the string of a token. -/
lemma parseTokens_from {ts v} (h : parseTokens ts = some v) : v.From ts := by
  unfold parseTokens at h
  split at h
  case h_1 v' hrun =>
    cases h
    exact (foldlM_held (fun _ ht => ht) ⟨trivial, by simp⟩ hrun).1
  case h_2 => cases h

end JsonText
