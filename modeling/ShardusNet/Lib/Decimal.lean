import ShardusNet.Lib.JsonText
import Mathlib.Data.List.Induction
import Mathlib.Data.Rat.Floor
import Mathlib.Tactic.FieldSimp
/-!
# Decimal texts

Numerals and decimal texts as number words of JSON: digits, perhaps a decimal point with digits
behind it, perhaps an exponent.

* `number_decimal`, `number_toString`: the number that a decimal text or a numeral denotes.
-/

namespace JsonText

/-! ## Numerals -/

/-- A digit is one unit, of the same number. -/
lemma charUnits_of_isDigit {c : Char} (hc : c.isDigit = true) :
    charUnits c = [UInt16.ofNat c.toNat] ∧ isDigit (UInt16.ofNat c.toNat) = true ∧
      (UInt16.ofNat c.toNat).toNat = c.toNat := by
  have hc : 48 ≤ c.toNat ∧ c.toNat ≤ 57 := by
    simpa [Char.isDigit, UInt32.le_iff_toNat_le] using hc
  have htoNat : (UInt16.ofNat c.toNat).toNat = c.toNat := by
    rw [UInt16.toNat_ofNat']
    omega
  refine ⟨if_pos (by omega), ?_, htoNat⟩
  simp only [isDigit, Bool.and_eq_true, decide_eq_true_eq, UInt16.le_iff_toNat_le, htoNat]
  exact hc

/-- The decimal digits of a number are digits. -/
lemma isDigit_of_mem {n : ℕ} {c} (hc : c ∈ Nat.toDigits 10 n) : c.isDigit = true :=
  Nat.isDigit_of_mem_toDigits (by omega) (by omega) hc

/-- The text of a number has a unit for each of its decimal digits. -/
lemma utf16_toString (n : ℕ) :
    utf16 (toString n) = (Nat.toDigits 10 n).map fun c => UInt16.ofNat c.toNat := by
  rw [utf16, Nat.toString_eq_ofList_toDigits, String.toList_ofList, List.map_eq_flatMap]
  exact List.flatMap_congr fun c hc => (charUnits_of_isDigit (isDigit_of_mem hc)).1

/-- A number has a digit. -/
lemma toString_ne_nil (n : ℕ) : utf16 (toString n) ≠ [] := by
  rw [utf16_toString, Ne, List.map_eq_nil_iff]
  exact Nat.toDigits_ne_nil

/-- The units of the text of a number are digits. -/
lemma isDigit_of_mem_utf16 {n : ℕ} {u} (hu : u ∈ utf16 (toString n)) : isDigit u = true := by
  rw [utf16_toString] at hu
  obtain ⟨c, hc, rfl⟩ := List.mem_map.mp hu
  exact (charUnits_of_isDigit (isDigit_of_mem hc)).2.1

/-- Units are read as the digits that they stand for. -/
lemma foldl_units {cs : List Char} (hcs : ∀ c ∈ cs, c.isDigit = true) (n) :
    (cs.map fun c => UInt16.ofNat c.toNat).foldl (fun n u => 10 * n + (u.toNat - 0x30)) n =
      Nat.ofDigitChars 10 cs n := by
  induction cs generalizing n with
  | nil => simp
  | cons c cs ih =>
    obtain ⟨hc, hcs⟩ := List.forall_mem_cons.mp hcs
    obtain ⟨_, _, htoNat⟩ := charUnits_of_isDigit hc
    rw [List.map_cons, List.foldl_cons, ih hcs, htoNat, Nat.ofDigitChars_cons]
    rfl

/-- The digits of a numeral denote its number. -/
lemma digitsValue_toString (n : ℕ) : digitsValue (utf16 (toString n)) = n := by
  rw [utf16_toString, digitsValue, foldl_units fun c hc => isDigit_of_mem hc,
    Nat.ofDigitChars_ten_toDigits]

/-- A numeral starts with a zero only when it is that zero. -/
lemma length_toDigits_of_head {n : ℕ} (h : (Nat.toDigits 10 n).head? = some '0') :
    (Nat.toDigits 10 n).length = 1 := by
  induction n using Nat.strong_induction_on with
  | _ n ih =>
    by_cases hn : n < 10
    · rw [Nat.toDigits_of_lt_base hn]
      rfl
    · rw [Nat.toDigits_of_base_le (by omega) (by omega), List.head?_append_of_ne_nil _
        Nat.toDigits_ne_nil] at h
      have hone := ih (n / 10) (by omega) h
      -- the digits in front are those of a number that is not zero
      obtain ⟨c, hc⟩ := List.length_eq_one_iff.mp hone
      rw [hc, List.head?_cons, Option.some_inj] at h
      subst h
      have hzero : Nat.ofDigitChars 10 (Nat.toDigits 10 (n / 10)) 0 = 0 := by rw [hc]; rfl
      rw [Nat.ofDigitChars_ten_toDigits] at hzero
      omega

/-- The units of a numeral start with a zero only when it is that zero. -/
lemma length_utf16_of_head {n : ℕ} (h : (utf16 (toString n)).head? = some 0x30) :
    (utf16 (toString n)).length = 1 := by
  rw [utf16_toString, List.head?_map, Option.map_eq_some_iff] at h
  obtain ⟨c, hc, hu⟩ := h
  have hmem : c ∈ Nat.toDigits 10 n := List.mem_of_mem_head? hc
  have hc0 : c = '0' := by
    apply Char.ext
    apply UInt32.toNat_inj.mp
    exact ((charUnits_of_isDigit (isDigit_of_mem hmem)).2.2).symm.trans (congrArg UInt16.toNat hu)
  rw [utf16_toString, List.length_map]
  exact length_toDigits_of_head (hc0 ▸ hc)

/-! ## Decimal texts -/

/-- Digits, the digits behind the decimal point, and the exponent. -/
def decimal (w f : Str) (e : ℤ) : Str :=
  w ++ (if f = [] then [] else 0x2e :: f) ++
    (if e = 0 then [] else 0x65 :: (if e < 0 then 0x2d else 0x2b) :: utf16 (toString e.natAbs))

/-- Digits that follow move the first ones up. -/
lemma digitsValue_append (a b : Str) :
    digitsValue (a ++ b) = digitsValue a * 10 ^ b.length + digitsValue b := by
  have hfoldl : ∀ (b : Str) (n : ℕ), b.foldl (fun n u => 10 * n + (u.toNat - 0x30)) n =
      n * 10 ^ b.length + digitsValue b := by
    intro b
    induction b using List.reverseRecOn with
    | nil => simp [digitsValue]
    | append_singleton b u ih =>
      intro n
      simp only [digitsValue, List.foldl_concat, List.length_append, List.length_singleton] at ih ⊢
      rw [ih n, pow_succ]
      ring
  rw [digitsValue, List.foldl_append]
  exact hfoldl b _

/-- Zeros have the value 0. -/
lemma digitsValue_replicate (n : ℕ) : digitsValue (List.replicate n 0x30) = 0 := by
  induction n with
  | zero => rfl
  | succ n ih =>
    rw [List.replicate_succ', digitsValue_append, ih]
    rfl

/-- The digits of a text end where something else follows. -/
lemma digits_append {ds s} (hne : ds ≠ []) (hds : ∀ u ∈ ds, isDigit u = true)
    (hs : ∀ u, s.head? = some u → isDigit u = false) : digits (ds ++ s) = some (ds, s) := by
  have htake : s.takeWhile isDigit = [] := by
    cases s with
    | nil => rfl
    | cons u s => simp [hs u rfl]
  have hdrop : s.dropWhile isDigit = s := by
    cases s with
    | nil => rfl
    | cons u s => simp [hs u rfl]
  rw [digits, List.takeWhile_append_of_pos hds, List.dropWhile_append_of_pos hds, htake, hdrop,
    List.append_nil, if_neg hne]

/-- An exponent with a sign. -/
lemma exponent_signed {ds u} (hne : ds ≠ []) (hds : ∀ u ∈ ds, isDigit u = true)
    (hu : u = 0x2b ∨ u = 0x2d) :
    exponent (0x65 :: u :: ds) =
      some (if u = 0x2d then -(digitsValue ds : ℤ) else digitsValue ds) := by
  have hdigits : digits ds = some (ds, []) := by
    have := digits_append (s := []) hne hds nofun
    rwa [List.append_nil] at this
  rcases hu with rfl | rfl
  · simp [exponent, hdigits]
  · simp [exponent, hdigits]

/-- Digits have a value below the power of ten of their number. -/
lemma digitsValue_lt {ds : Str} (hds : ∀ u ∈ ds, isDigit u = true) :
    digitsValue ds < 10 ^ ds.length := by
  induction ds using List.reverseRecOn with
  | nil => exact one_pos
  | append_singleton ds u ih =>
    obtain ⟨hds, hu⟩ := List.forall_mem_append.mp hds
    have hu : u.toNat - 0x30 ≤ 9 := by
      have hu := hu u List.mem_cons_self
      simp only [isDigit, Bool.and_eq_true, decide_eq_true_eq, UInt16.le_iff_toNat_le] at hu
      have h39 : (0x39 : UInt16).toNat = 57 := rfl
      omega
    have hvalue : digitsValue [u] = u.toNat - 0x30 := by simp [digitsValue]
    rw [digitsValue_append, hvalue, List.length_append, List.length_singleton, pow_succ]
    have := ih hds
    omega

/-- A number is below the power of ten of the number of its digits. -/
lemma lt_pow_length_toString (n : ℕ) : n < 10 ^ (utf16 (toString n)).length := by
  have hlt : digitsValue (utf16 (toString n)) < 10 ^ (utf16 (toString n)).length :=
    digitsValue_lt fun u hu => isDigit_of_mem_utf16 hu
  rwa [digitsValue_toString] at hlt

/-- An exponent is read back as it is written. -/
lemma exponent_eq (e : ℤ) :
    exponent (if e = 0 then [] else 0x65 :: (if e < 0 then 0x2d else 0x2b) :: utf16 (toString e.natAbs)) =
      some e := by
  have hds : ∀ u ∈ utf16 (toString e.natAbs), isDigit u = true :=
    fun u hu => isDigit_of_mem_utf16 hu
  split
  case isTrue h =>
    rw [h]
    rfl
  case isFalse h =>
    split
    case isTrue hneg =>
      rw [exponent_signed (toString_ne_nil _) hds (.inr rfl), digitsValue_toString, if_pos rfl,
        Option.some_inj]
      omega
    case isFalse hneg =>
      rw [exponent_signed (toString_ne_nil _) hds (.inl rfl), digitsValue_toString,
        if_neg (by decide), Option.some_inj]
      omega

/-- The digits of a decimal text: some before the point, and no zero in front of others. -/
structure IsDecimal (w f : Str) : Prop where
  ne_nil : w ≠ []
  whole : ∀ u ∈ w, isDigit u = true
  frac : ∀ u ∈ f, isDigit u = true
  zero : w.head? = some 0x30 → w.length = 1

/-- The rational that a decimal text denotes. -/
theorem number_decimal {w f e} (hwf : IsDecimal w f) :
    number (decimal w f e) = some ((digitsValue (w ++ f) : ℚ) / 10 ^ f.length * 10 ^ e) := by
  obtain ⟨hne, hw, hf, hzero⟩ := hwf
  have hdigit : ∀ {u}, u ∈ w → u ≠ 0x2d := by
    intro u hu h
    have := hw u hu
    rw [h] at this
    revert this
    decide
  have hminus : ∀ s, (w ++ s).head? ≠ some 0x2d := by
    intro s h
    rw [List.head?_append_of_ne_nil _ hne] at h
    exact hdigit (List.mem_of_mem_head? h) rfl
  set x := if e = 0 then [] else 0x65 :: (if e < 0 then 0x2d else 0x2b) :: utf16 (toString e.natAbs)
  have hx : ∀ u, x.head? = some u → u = 0x65 := by
    intro u hu
    simp only [x] at hu
    split at hu
    case isTrue => cases hu
    case isFalse => exact (Option.some_inj.mp hu).symm
  have hexp : exponent x = some e := exponent_eq e
  -- up to the first unit that is not a digit
  have hwhole : ∀ s, (∀ u, s.head? = some u → isDigit u = false) →
      wholePart (w ++ s) = some (digitsValue w, s) := by
    intro s hs
    have hnot : ¬(w.head? = some 0x30 ∧ w.length ≠ 1) := fun h => h.2 (hzero h.1)
    simp only [wholePart, digits_append hne hw hs, Option.bind_eq_bind, Option.bind_some,
      if_neg hnot]
  have hfrac : fraction ((if f = [] then [] else 0x2e :: f) ++ x) =
      some ((digitsValue f : ℚ) / 10 ^ f.length, x) := by
    split
    case isTrue h =>
      rw [List.nil_append, h]
      cases hcases : x with
      | nil => simp [fraction, digitsValue]
      | cons u s =>
        have hu := hx u (by rw [hcases]; rfl)
        simp [fraction, hu, digitsValue]
    case isFalse h =>
      have hstop : ∀ u, x.head? = some u → isDigit u = false := by
        intro u hu
        rw [hx u hu]
        rfl
      rw [List.cons_append, fraction, if_pos rfl, digits_append h hf hstop]
      rfl
  have hstop : ∀ u, ((if f = [] then [] else 0x2e :: f) ++ x).head? = some u →
      isDigit u = false := by
    intro u hu
    split at hu
    case isTrue =>
      rw [hx u hu]
      rfl
    case isFalse =>
      cases hu
      rfl
  have hdecimal : decimal w f e = w ++ ((if f = [] then [] else 0x2e :: f) ++ x) :=
    List.append_assoc w _ _
  rw [hdecimal, number, if_neg (hminus _), hwhole _ hstop]
  simp only [hfrac, hexp, Option.bind_eq_bind, Option.bind_some, if_neg (hminus _),
    digitsValue_append]
  congr 2
  push_cast
  field_simp

/-- The units of a decimal text: only an exponent below zero has a `-`. -/
lemma mem_decimal {w f e u} (hwf : IsDecimal w f) (hu : u ∈ decimal w f e) :
    isDigit u = true ∨ u = 0x2e ∨ u = 0x65 ∨ u = 0x2b ∨ u = 0x2d ∧ e < 0 := by
  simp only [decimal, List.mem_append] at hu
  rcases hu with (hu | hu) | hu
  · exact .inl (hwf.whole u hu)
  · split at hu
    case isTrue => cases hu
    case isFalse =>
      rcases List.mem_cons.mp hu with hu | hu
      · exact .inr (.inl hu)
      · exact .inl (hwf.frac u hu)
  · split at hu
    case isTrue => cases hu
    case isFalse =>
      rcases List.mem_cons.mp hu with hu | hu
      · exact .inr (.inr (.inl hu))
      rcases List.mem_cons.mp hu with hu | hu
      · split at hu
        case isTrue he => exact .inr (.inr (.inr (.inr ⟨hu, he⟩)))
        case isFalse => exact .inr (.inr (.inr (.inl hu)))
      · exact .inl (isDigit_of_mem_utf16 hu)

/-- A decimal begins with a digit. -/
lemma head_decimal {w f e} (hwf : IsDecimal w f) :
    ∃ u s, decimal w f e = u :: s ∧ isDigit u = true := by
  obtain ⟨u, s, hs⟩ := List.exists_cons_of_ne_nil hwf.ne_nil
  have hdigit := hwf.whole u (by rw [hs]; exact List.mem_cons_self)
  rw [decimal, hs, List.cons_append, List.cons_append]
  exact ⟨u, _, rfl, hdigit⟩

/-- A decimal is one word. -/
lemma isWord_of_mem_decimal {w f e u} (hwf : IsDecimal w f) (hu : u ∈ decimal w f e) :
    isWord u = true := by
  rcases mem_decimal hwf hu with hu | rfl | rfl | rfl | ⟨rfl, _⟩
  · rw [isWord, hu]
    rfl
  · rfl
  · rfl
  · rfl
  · rfl

/-- A minus sign changes the sign of the number. -/
lemma number_minus {w : Str} (hw : w.head? ≠ some 0x2d) :
    number (0x2d :: w) = (number w).map fun q => -q := by
  simp only [number, List.head?_cons, List.tail_cons, if_pos, if_neg hw]
  cases wholePart w with
  | none => rfl
  | some r =>
    cases hf : fraction r.2 with
    | none => simp [hf]
    | some r' =>
      cases he : exponent r'.2 with
      | none => simp [hf, he]
      | some e => simp [hf, he]

/-- A numeral denotes its number. -/
theorem number_toString (n : ℕ) : number (utf16 (toString n)) = some (n : ℚ) := by
  have hdecimal : IsDecimal (utf16 (toString n)) [] :=
    ⟨toString_ne_nil n, fun u hu => isDigit_of_mem_utf16 hu, nofun, length_utf16_of_head⟩
  have htext : decimal (utf16 (toString n)) [] 0 = utf16 (toString n) := by simp [decimal]
  rw [← htext, number_decimal hdecimal, List.append_nil, digitsValue_toString]
  simp

end JsonText
