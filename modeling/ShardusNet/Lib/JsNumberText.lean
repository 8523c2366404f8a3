import ShardusNet.Lib.Decimal
import ShardusNet.Lib.JsNumber
import Mathlib.Data.Int.Log
import Mathlib.Data.List.DropRight
/-!
# The texts of JavaScript numbers

A finite JavaScript number is a binary floating-point number of 64 bits. `ofRat` rounds a rational
to the nearest of them, ties to even, `toText` is the text of a number (`Number::toString` of
ECMA-262: the fewest digits that are rounded to the number), and `ofText` reads such a text again.
Zero has one sign here.

* `number_toText`: the text of a finite number denotes a rational that is rounded to it.
* `wordToken_toText`, `ofText_toText`: in a JSON text and as a string, the text of a finite number
  is read as that number.
* `minus_not_mem_toText`: the text of a number that is at least one has no `-`.
-/

open JsonText
namespace JsNumber

/-! ## Rounding -/

/-- The nearest natural number, the even one of two. -/
def roundEven (q : ℚ) : ℕ :=
  if q - ⌊q⌋₊ < 1 / 2 then ⌊q⌋₊
  else if 1 / 2 < q - ⌊q⌋₊ then ⌊q⌋₊ + 1
  else ⌊q⌋₊ + ⌊q⌋₊ % 2

/-- The distance of the floating-point numbers around a positive rational, as a multiple of the
    least one, `2 ^ -1074`. -/
def ulp (q : ℚ) : ℕ := 2 ^ (Nat.log2 ⌊q * 2 ^ 1074⌋₊ - 52)

/-- The nearest floating-point number to a rational that is not negative, with no largest one. -/
def roundMag (q : ℚ) : ℚ := (roundEven (q * 2 ^ 1074 / ulp q) * ulp q : ℕ) / 2 ^ 1074

/-- The number for a rational. -/
def ofRat (q : ℚ) : JsNumber :=
  if roundMag |q| < 2 ^ 1024 then .finite (if q < 0 then -roundMag |q| else roundMag |q|)
  else if q < 0 then .negInf
  else .posInf

/-- The rationals that are numbers themselves. -/
def IsDouble (q : ℚ) : Prop := ofRat q = .finite q

/-- It can be decided, by rounding. -/
instance (q : ℚ) : Decidable (IsDouble q) := inferInstanceAs (Decidable (ofRat q = .finite q))

/-- The numbers: those that are finite are doubles. -/
def IsNumber (x : JsNumber) : Prop := ∀ q, x = .finite q → IsDouble q

/-- `x + y`. -/
def add : JsNumber → JsNumber → JsNumber
  | .nan, _ => .nan
  | _, .nan => .nan
  | .finite p, .finite q => ofRat (p + q)
  | .finite _, y => y
  | x, .finite _ => x
  | .posInf, .posInf => .posInf
  | .negInf, .negInf => .negInf
  | _, _ => .nan

/-! ## Texts -/

/-- The number of digits before the decimal point of a positive rational; zero or less when it
    starts behind the point. -/
def magnitude (q : ℚ) : ℤ := Int.log 10 q + 1

/-- The `s` of this many digits and the `e` for which `s * 10 ^ e` is rounded to the number: the
    nearest one to it. -/
def digitsAt (q : ℚ) (k : ℕ) : Option (ℕ × ℤ) :=
  let e := magnitude q - k
  let r := q / 10 ^ e
  ([roundEven r, ⌊r⌋₊, ⌊r⌋₊ + 1].find? fun (s : ℕ) => ofRat (s * 10 ^ e) = .finite q).map
    fun s => (s, e)

/-- The same with as few digits as possible. -/
def shortest (q : ℚ) : ℕ × ℤ :=
  ((List.range (magnitude q + 1074).toNat).findSome? fun k => digitsAt q (k + 1)).getD (0, 0)

/-- The text of `0.ds * 10 ^ n`. -/
def layout (ds : Str) (n : ℤ) : Str :=
  if ds.length ≤ n ∧ n ≤ 21 then decimal (ds ++ List.replicate (n - ds.length).toNat 0x30) [] 0
  else if 0 < n ∧ n ≤ 21 then decimal (ds.take n.toNat) (ds.drop n.toNat) 0
  else if -6 < n ∧ n ≤ 0 then decimal [0x30] (List.replicate (-n).toNat 0x30 ++ ds) 0
  else decimal (ds.take 1) (ds.drop 1) (n - 1)

/-- The digits of a number without the zeros at the end. -/
def significant (s : ℕ) : Str := (utf16 (toString s)).rdropWhile (· = 0x30)

/-- The text of a positive number. -/
def magText (q : ℚ) : Str :=
  layout (significant (shortest q).1) ((shortest q).2 + (utf16 (toString (shortest q).1)).length)

/-- The text of a number. -/
def toText : JsNumber → Str
  | .finite q => if q = 0 then [0x30] else if q < 0 then 0x2d :: magText (-q) else magText q
  | .posInf => utf16 "Infinity"
  | .negInf => utf16 "-Infinity"
  | .nan => utf16 "NaN"

/-- `Number` of a text that is empty or part of the text of a number. -/
def ofText (s : Str) : JsNumber :=
  if s = [] then .finite 0
  else if s = utf16 "Infinity" then .posInf
  else ((number s).map ofRat).getD .nan

/-! ## Strings -/

/-- White space and line ends in a string that is converted to a number. -/
def isStrWhiteSpace (u : UInt16) : Bool :=
  (0x09 ≤ u && u ≤ 0x0d) || (0x2000 ≤ u && u ≤ 0x200a) ||
    u ∈ [0x20, 0xa0, 0x1680, 0x2028, 0x2029, 0x202f, 0x205f, 0x3000, 0xfeff]

/-- The number of a string of digits of this base, if there are any. -/
def radixLiteral (base : ℕ) (s : Str) : JsNumber :=
  let digit u := (hexValue u).filter (· < base)
  match s.mapM digit with
  | some (d :: ds) => ofRat ((d :: ds).foldl (fun n d => base * n + d) 0 : ℕ)
  | _ => .nan

/-- The rational that decimal digits with a point and an exponent denote; the digits on one side of
    the point may be missing. -/
def strDecimalLiteral (s : Str) : Option ℚ := do
  let whole := s.takeWhile isDigit
  let s := s.dropWhile isDigit
  let point := s.head? = some 0x2e
  let frac := if point then s.tail.takeWhile isDigit else []
  if whole ++ frac = [] then none
  else
    let e ← exponent (if point then s.tail.dropWhile isDigit else s)
    some ((digitsValue whole + digitsValue frac / 10 ^ frac.length) * 10 ^ e)

/-- `Number` of a string. -/
def ofString (s : Str) : JsNumber :=
  match (s.dropWhile isStrWhiteSpace).rdropWhile isStrWhiteSpace with
  | [] => .finite 0
  | u :: s =>
    let unsigned := if u = 0x2b || u = 0x2d then s else u :: s
    if u = 0x30 && (s.head? = some 0x78 || s.head? = some 0x58) then radixLiteral 16 s.tail
    else if u = 0x30 && (s.head? = some 0x6f || s.head? = some 0x4f) then radixLiteral 8 s.tail
    else if u = 0x30 && (s.head? = some 0x62 || s.head? = some 0x42) then radixLiteral 2 s.tail
    else if unsigned = utf16 "Infinity" then if u = 0x2d then .negInf else .posInf
    else
      match strDecimalLiteral unsigned with
      | some q => ofRat (if u = 0x2d then -q else q)
      | none => .nan

/-! ## Doubles -/

/-- A natural number is rounded to itself. -/
lemma roundEven_natCast (n : ℕ) : roundEven n = n := by
  rw [roundEven, Nat.floor_natCast, sub_self, if_pos one_half_pos]

/-- Zero is rounded to itself. -/
lemma roundMag_zero : roundMag 0 = 0 := by
  have hzero := roundEven_natCast 0
  rw [Nat.cast_zero] at hzero
  rw [roundMag, zero_mul, zero_div, hzero, zero_mul, Nat.cast_zero, zero_div]

/-- A double is what rounding leaves as it is, below the overflow. -/
lemma isDouble_iff {q} : IsDouble q ↔ roundMag |q| = |q| ∧ |q| < 2 ^ 1024 := by
  have hsign : (if q < 0 then -roundMag |q| else roundMag |q|) = q ↔ roundMag |q| = |q| := by
    split
    case isTrue h => rw [abs_of_neg h, neg_eq_iff_eq_neg]
    case isFalse h => rw [abs_of_nonneg (not_lt.mp h)]
  unfold IsDouble ofRat
  split
  case isTrue h =>
    rw [JsNumber.finite.injEq, hsign]
    constructor
    · intro e
      exact ⟨e, e ▸ h⟩
    · intro e
      exact e.1
  case isFalse h =>
    constructor
    · intro e
      split at e <;> cases e
    · rintro ⟨e, hlt⟩
      exact absurd (lt_of_eq_of_lt e hlt) h

/-- The sign does not matter. -/
lemma isDouble_neg {q} : IsDouble (-q) ↔ IsDouble q := by
  rw [isDouble_iff, isDouble_iff, abs_neg]

/-- Rounding keeps the sign. -/
lemma ofRat_neg {q x} (hx : x ≠ 0) (h : ofRat q = .finite x) : ofRat (-q) = .finite (-x) := by
  unfold ofRat at h ⊢
  rw [abs_neg]
  split at h
  case isTrue hlt =>
    rw [if_pos hlt, JsNumber.finite.injEq]
    rw [JsNumber.finite.injEq] at h
    rcases lt_trichotomy q 0 with hq | rfl | hq
    · rw [if_neg (not_lt.mpr (neg_nonneg.mpr hq.le))]
      rw [if_pos hq] at h
      rw [← h, neg_neg]
    · refine absurd ?_ hx
      rw [← h, if_neg (lt_irrefl _), abs_zero, roundMag_zero]
    · rw [if_pos (neg_lt_zero.mpr hq)]
      rw [if_neg (not_lt.mpr hq.le)] at h
      rw [h]
  case isFalse hlt => split at h <;> cases h

/-- A double is a multiple of the least positive one. -/
lemma IsDouble.exists_natCast {q} (h : IsDouble q) : ∃ n : ℕ, |q| * 2 ^ 1074 = n := by
  obtain ⟨h, _⟩ := isDouble_iff.mp h
  refine ⟨roundEven (|q| * 2 ^ 1074 / ulp |q|) * ulp |q|, ?_⟩
  rw [roundMag] at h
  nth_rewrite 1 [← h]
  exact div_mul_cancel₀ _ (by positivity)

/-- The text of `0.ds * 10 ^ n` is a decimal text that denotes it; only when it starts far behind
    the point is the exponent negative. -/
lemma layout_eq {ds n} (hne : ds ≠ []) (hds : ∀ u ∈ ds, isDigit u = true)
    (hhead : ds.head? ≠ some 0x30) :
    ∃ w f e, layout ds n = decimal w f e ∧ IsDecimal w f ∧ (e < 0 → n ≤ -6) ∧
      (digitsValue (w ++ f) : ℚ) / 10 ^ f.length * 10 ^ e =
        digitsValue ds * 10 ^ (n - ds.length) := by
  have hlen : 0 < ds.length := List.length_pos_iff.mpr hne
  have hzeros : ∀ m, ∀ u ∈ List.replicate m (0x30 : UInt16), isDigit u = true := by
    intro m u hu
    rw [(List.mem_replicate.mp hu).2]
    rfl
  -- the digits in two parts
  have hsplit : ∀ {m}, 0 < m → IsDecimal (ds.take m) (ds.drop m) := by
    intro m hm
    refine ⟨?_, fun u hu => hds u (List.mem_of_mem_take hu),
      fun u hu => hds u (List.mem_of_mem_drop hu), ?_⟩
    · rw [Ne, List.take_eq_nil_iff, not_or]
      exact ⟨hm.ne', hne⟩
    · intro h
      rw [List.head?_take, if_neg hm.ne'] at h
      exact absurd h hhead
  unfold layout
  split
  case isTrue h =>
    refine ⟨_, _, _, rfl, ⟨?_, List.forall_mem_append.mpr ⟨hds, hzeros _⟩, by simp, ?_⟩, by omega, ?_⟩
    · exact List.append_ne_nil_of_left_ne_nil hne _
    · intro h
      rw [List.head?_append_of_ne_nil _ hne] at h
      exact absurd h hhead
    · have he : (10 : ℚ) ^ (n - ds.length) = 10 ^ (n - ds.length).toNat := by
        rw [← zpow_natCast, Int.toNat_of_nonneg (by omega)]
      rw [he, List.append_nil, digitsValue_append, digitsValue_replicate, List.length_replicate]
      simp
  case isFalse =>
    split
    case isTrue h h' =>
      refine ⟨_, _, _, rfl, hsplit (by omega), by omega, ?_⟩
      have he : n - ds.length = -((ds.length - n.toNat : ℕ) : ℤ) := by omega
      rw [List.take_append_drop, List.length_drop, he, zpow_neg, zpow_natCast, zpow_zero, mul_one,
        div_eq_mul_inv]
    case isFalse =>
      split
      case isTrue h =>
        refine ⟨_, _, _, rfl, ⟨by simp, List.forall_mem_singleton.mpr rfl,
          List.forall_mem_append.mpr ⟨hzeros _, hds⟩,
          fun _ => rfl⟩, by omega, ?_⟩
        have hzero : digitsValue ([0x30] ++ List.replicate (-n).toNat 0x30) = 0 :=
          digitsValue_replicate ((-n).toNat + 1)
        have he : n - ds.length = -(((-n).toNat + ds.length : ℕ) : ℤ) := by omega
        rw [← List.append_assoc, digitsValue_append, List.length_append, List.length_replicate, hzero,
          he, zpow_neg, zpow_natCast, zpow_zero, zero_mul, zero_add, mul_one, div_eq_mul_inv]
      case isFalse h =>
        refine ⟨_, _, _, rfl, hsplit one_pos, by omega, ?_⟩
        have he : n - ds.length = -((ds.length - 1 : ℕ) : ℤ) + (n - 1) := by omega
        rw [List.take_append_drop, List.length_drop, he, zpow_add₀ (by norm_num), zpow_neg,
          zpow_natCast, div_eq_mul_inv, mul_assoc]

/-! ## The text of a number denotes it -/

/-- The digits found are rounded to the number. -/
lemma digitsAt_spec {q k p} (h : digitsAt q k = some p) : ofRat (p.1 * 10 ^ p.2) = .finite q := by
  obtain ⟨s, hs, rfl⟩ := Option.map_eq_some_iff.mp h
  have := List.find?_some hs
  simpa using this

/-- Digits that are found are no fewer than asked for. -/
lemma digitsAt_le {q k p} (hq : 0 < q) (h : digitsAt q (k + 1) = some p) :
    10 ^ k ≤ p.1 ∧ p.2 = magnitude q - (k + 1) := by
  obtain ⟨s, hs, rfl⟩ := Option.map_eq_some_iff.mp h
  refine ⟨?_, by push_cast; rfl⟩
  set r := q / 10 ^ (magnitude q - (k + 1 : ℕ))
  have hround : ⌊r⌋₊ ≤ roundEven r := by
    unfold roundEven
    split
    · exact le_refl _
    · split
      · exact Nat.le_succ _
      · exact Nat.le_add_right _ _
  have hfloor : ⌊r⌋₊ ≤ s := by
    have hmem := List.mem_of_find?_eq_some hs
    simp only [List.mem_cons, List.not_mem_nil, or_false] at hmem
    omega
  have hlog := Int.zpow_log_le_self (b := 10) (by norm_num) hq
  refine le_trans (Nat.le_floor ?_) hfloor
  rw [le_div_iff₀ (zpow_pos (by norm_num) _), Nat.cast_pow, Nat.cast_ofNat,
    ← zpow_natCast, ← zpow_add₀ (by norm_num)]
  have he : (k : ℤ) + (magnitude q - (k + 1 : ℕ)) = Int.log 10 q := by
    unfold magnitude
    omega
  rw [he]
  exact hlog

/-- A positive fraction with a power of two below it is not less than one over that power of ten. -/
lemma ten_zpow_neg_le {q : ℚ} {n t : ℕ} (hq : 0 < q) (hn : q * 2 ^ t = n) :
    (10 : ℚ) ^ (-t : ℤ) ≤ q := by
  have hone : (1 : ℚ) ≤ n := by
    have : (0 : ℚ) < n := hn ▸ mul_pos hq (by positivity)
    exact_mod_cast this
  have htwo : (2 : ℚ) ^ t ≤ 10 ^ t := pow_le_pow_left₀ (by norm_num) (by norm_num) _
  rw [zpow_neg, zpow_natCast, inv_le_iff_one_le_mul₀ (by positivity)]
  calc (1 : ℚ) ≤ n := hone
    _ = q * 2 ^ t := hn.symm
    _ ≤ q * 10 ^ t := mul_le_mul_of_nonneg_left htwo hq.le

/-- A fraction with a power of two below it, in units of one over that power of ten. -/
lemma div_ten_zpow_neg {q : ℚ} {n t : ℕ} (hn : q * 2 ^ t = n) :
    q / 10 ^ (-t : ℤ) = (n * 5 ^ t : ℕ) := by
  rw [zpow_neg, zpow_natCast, div_inv_eq_mul, Nat.cast_mul, ← hn]
  push_cast
  rw [mul_assoc, ← mul_pow]
  norm_num

/-- No double has a magnitude below -1073. -/
lemma magnitude_ge {q : ℚ} (hq : 0 < q) (h : IsDouble q) : -1073 ≤ magnitude q := by
  obtain ⟨n, hn⟩ := h.exists_natCast
  rw [abs_of_pos hq] at hn
  have := (Int.zpow_le_iff_le_log (b := 10) (by norm_num) hq).mp (ten_zpow_neg_le hq hn)
  unfold magnitude
  omega

/-- There are digits enough for every double. -/
lemma digitsAt_isSome {q} (hq : 0 < q) (h : IsDouble q) :
    (digitsAt q (magnitude q + 1074).toNat).isSome := by
  have hm := magnitude_ge hq h
  obtain ⟨n, hn⟩ := h.exists_natCast
  rw [abs_of_pos hq] at hn
  have he : magnitude q - ((magnitude q + 1074).toNat : ℤ) = -(1074 : ℕ) := by omega
  unfold digitsAt
  rw [he, Option.isSome_map, List.find?_isSome]
  refine ⟨roundEven (q / 10 ^ (-(1074 : ℕ) : ℤ)), List.mem_cons_self, ?_⟩
  rw [decide_eq_true_eq, div_ten_zpow_neg hn, roundEven_natCast, ← div_ten_zpow_neg hn,
    div_mul_cancel₀ _ (zpow_ne_zero _ (by norm_num))]
  exact h

/-- The shortest digits are those at some length. -/
lemma shortest_eq {q} (hq : 0 < q) (h : IsDouble q) :
    ∃ k, digitsAt q (k + 1) = some (shortest q) := by
  have hm := magnitude_ge hq h
  have hsome :
      ((List.range (magnitude q + 1074).toNat).findSome? fun k => digitsAt q (k + 1)).isSome := by
    rw [List.findSome?_isSome_iff]
    refine ⟨(magnitude q + 1073).toNat, List.mem_range.mpr (by omega), ?_⟩
    have he : (magnitude q + 1073).toNat + 1 = (magnitude q + 1074).toNat := by omega
    rw [he]
    exact digitsAt_isSome hq h
  obtain ⟨⟨s, e⟩, hfind⟩ := Option.isSome_iff_exists.mp hsome
  obtain ⟨k, _, hk⟩ := List.exists_of_findSome?_eq_some hfind
  rw [shortest, hfind]
  exact ⟨k, hk⟩

/-- The shortest digits are rounded to the number. -/
lemma shortest_spec {q} (hq : 0 < q) (h : IsDouble q) :
    ofRat ((shortest q).1 * 10 ^ (shortest q).2) = .finite q := by
  obtain ⟨k, hk⟩ := shortest_eq hq h
  exact digitsAt_spec hk

/-- A number from 1 on has a digit before the point. -/
lemma shortest_pos {q} (hone : 1 ≤ q) (h : IsDouble q) :
    0 < (shortest q).2 + (utf16 (toString (shortest q).1)).length := by
  have hq := one_pos.trans_le hone
  obtain ⟨k, hk⟩ := shortest_eq hq h
  obtain ⟨hle, he⟩ := digitsAt_le hq hk
  have hlen : 10 ^ k < 10 ^ (utf16 (toString (shortest q).1)).length :=
    lt_of_le_of_lt hle (lt_pow_length_toString _)
  have hk := (Nat.pow_lt_pow_iff_right (by norm_num)).mp hlen
  have hlog := (Int.zpow_le_iff_le_log (x := 0) (b := 10) (by norm_num) hq).mp (by simpa using hone)
  rw [he]
  unfold magnitude
  omega

/-- The significant digits, and the zeros that are left out. -/
lemma significant_append (s : ℕ) :
    ∃ m, utf16 (toString s) = significant s ++ List.replicate m 0x30 := by
  refine ⟨((utf16 (toString s)).rtakeWhile (· = 0x30)).length, ?_⟩
  have hzeros : (utf16 (toString s)).rtakeWhile (· = 0x30) =
      List.replicate ((utf16 (toString s)).rtakeWhile (· = 0x30)).length 0x30 := by
    rw [List.eq_replicate_iff]
    exact ⟨rfl, fun u hu => by simpa using List.mem_rtakeWhile_imp hu⟩
  rw [← hzeros, significant, List.rdropWhile_append_rtakeWhile]

/-- There are significant digits, and the first of them is not zero. -/
lemma significant_spec {s : ℕ} (hs : s ≠ 0) :
    significant s ≠ [] ∧ (∀ u ∈ significant s, isDigit u = true) ∧
      (significant s).head? ≠ some 0x30 := by
  have hhead : (utf16 (toString s)).head? ≠ some 0x30 := by
    intro h
    obtain ⟨u, hu⟩ := List.length_eq_one_iff.mp (length_utf16_of_head h)
    have hvalue := digitsValue_toString s
    rw [hu] at h hvalue
    cases h
    exact hs hvalue.symm
  have hne : significant s ≠ [] := by
    intro h
    rw [significant, List.rdropWhile_eq_nil_iff] at h
    obtain ⟨u, us, hu⟩ := List.exists_cons_of_ne_nil (toString_ne_nil s)
    rw [hu] at h hhead
    exact hhead (congrArg some (of_decide_eq_true (h u List.mem_cons_self)))
  obtain ⟨m, hm⟩ := significant_append s
  refine ⟨hne, fun u hu => isDigit_of_mem_utf16 (n := s) ?_, ?_⟩
  · rw [hm]
    exact List.mem_append_left _ hu
  · rwa [hm, List.head?_append_of_ne_nil _ hne] at hhead

/-- The shortest digits are not all zeros. -/
lemma shortest_ne_zero {q} (hq : 0 < q) (h : IsDouble q) : (shortest q).1 ≠ 0 := by
  obtain ⟨k, hk⟩ := shortest_eq hq h
  have hle := (digitsAt_le hq hk).1
  have := Nat.pow_pos (n := k) (show 0 < 10 by norm_num)
  omega

/-- The text of a positive number is a decimal text, which denotes a rational that is rounded to the
    number; only when the number is less than one is the exponent negative. -/
lemma magText_eq {q} (hq : 0 < q) (h : IsDouble q) :
    ∃ w f e, magText q = decimal w f e ∧ IsDecimal w f ∧ (1 ≤ q → 0 ≤ e) ∧
      ofRat ((digitsValue (w ++ f) : ℚ) / 10 ^ f.length * 10 ^ e) = .finite q := by
  obtain ⟨hne, hds, hhead⟩ := significant_spec (shortest_ne_zero hq h)
  obtain ⟨w, f, e, heq, hwf, he, hvalue⟩ := layout_eq hne hds hhead
    (n := (shortest q).2 + (utf16 (toString (shortest q).1)).length)
  refine ⟨w, f, e, heq, hwf, ?_, ?_⟩
  · intro hone
    have := shortest_pos hone h
    omega
  · rw [← shortest_spec hq h, hvalue]
    congr 1
    obtain ⟨m, hm⟩ := significant_append (shortest q).1
    have hdigits := digitsValue_toString (shortest q).1
    rw [hm, digitsValue_append, digitsValue_replicate, List.length_replicate, add_zero] at hdigits
    have he : (shortest q).2 + (utf16 (toString (shortest q).1)).length -
        (significant (shortest q).1).length = m + (shortest q).2 := by
      rw [hm, List.length_append, List.length_replicate]
      omega
    rw [he, zpow_add₀ (by norm_num), zpow_natCast, ← mul_assoc]
    congr 1
    exact_mod_cast hdigits

/-- The text of a finite number denotes a rational that is rounded to it. -/
theorem number_toText {q} (h : IsDouble q) :
    ∃ r, number (toText (.finite q)) = some r ∧ ofRat r = .finite q := by
  rw [toText]
  split
  case isTrue hzero =>
    have hnumber := number_toString 0
    exact ⟨0, hnumber, hzero ▸ h⟩
  case isFalse hne =>
    split
    case isTrue hneg =>
      obtain ⟨w, f, e, heq, hwf, _, hvalue⟩ := magText_eq (neg_pos.mpr hneg) (isDouble_neg.mpr h)
      obtain ⟨u, s, hu, hdigit⟩ := head_decimal (e := e) hwf
      have hminus : (decimal w f e).head? ≠ some 0x2d := by
        intro hminus
        rw [hu, List.head?_cons, Option.some_inj] at hminus
        rw [hminus] at hdigit
        cases hdigit
      refine ⟨_, ?_, (ofRat_neg (neg_ne_zero.mpr hne) hvalue).trans (by rw [neg_neg])⟩
      rw [heq, number_minus hminus, number_decimal hwf, Option.map_some]
    case isFalse hneg =>
      obtain ⟨w, f, e, heq, hwf, _, hvalue⟩ :=
        magText_eq (lt_of_le_of_ne (not_lt.mp hneg) (Ne.symm hne)) h
      exact ⟨_, heq ▸ number_decimal hwf, hvalue⟩

/-- The text of a number that is at least one has no `-`. -/
lemma minus_not_mem_toText {q} (hone : 1 ≤ q) (h : IsDouble q) : 0x2d ∉ toText (.finite q) := by
  have hq := one_pos.trans_le hone
  obtain ⟨w, f, e, heq, hwf, he, _⟩ := magText_eq hq h
  rw [toText, if_neg hq.ne', if_neg (not_lt.mpr hq.le), heq]
  intro hmem
  rcases mem_decimal hwf hmem with hu | hu | hu | hu | hu
  · cases hu
  · cases hu
  · cases hu
  · cases hu
  · exact absurd hu.2 (not_lt.mpr (he hone))

/-- The text of a double is not empty. -/
lemma toText_ne_nil {q} (h : IsDouble q) : toText (.finite q) ≠ [] := by
  intro hnil
  obtain ⟨r, hr, _⟩ := number_toText h
  rw [hnil] at hr
  cases hr

/-- The text of a double is one word. -/
lemma isWord_of_mem_toText {q u} (h : IsDouble q) (hu : u ∈ toText (.finite q)) :
    isWord u = true := by
  rw [toText] at hu
  split at hu
  case isTrue =>
    rw [List.mem_singleton.mp hu]
    rfl
  case isFalse hne =>
    split at hu
    case isTrue hneg =>
      obtain ⟨w, f, e, heq, hwf, _⟩ := magText_eq (neg_pos.mpr hneg) (isDouble_neg.mpr h)
      rw [heq] at hu
      rcases List.mem_cons.mp hu with rfl | hu
      · rfl
      · exact isWord_of_mem_decimal hwf hu
    case isFalse hneg =>
      obtain ⟨w, f, e, heq, hwf, _⟩ := magText_eq (lt_of_le_of_ne (not_lt.mp hneg) (Ne.symm hne)) h
      rw [heq] at hu
      exact isWord_of_mem_decimal hwf hu

/-- The text of a double is the token of a number. -/
lemma wordToken_toText {q} (h : IsDouble q) :
    wordToken (toText (.finite q)) = some (.num (toText (.finite q))) := by
  obtain ⟨r, hr, _⟩ := number_toText h
  exact wordToken_of_number hr

/-- A double is read back from its text. -/
lemma ofText_toText {q} (h : IsDouble q) : ofText (toText (.finite q)) = .finite q := by
  obtain ⟨r, hr, hround⟩ := number_toText h
  have hinf : toText (.finite q) ≠ utf16 "Infinity" := by
    intro hinf
    have hnone : number (utf16 "Infinity") = none := by decide
    rw [hinf, hnone] at hr
    cases hr
  rw [ofText, if_neg (toText_ne_nil h), if_neg hinf, hr]
  exact hround

end JsNumber
