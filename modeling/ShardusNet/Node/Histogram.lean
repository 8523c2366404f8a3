import ShardusNet.Lib.Entries
import ShardusNet.Lib.Intervals
import ShardusNet.Lib.JsNumberText
import Mathlib.Data.List.Find
/-!
# Histograms

Port of `src/util/Histogram.ts`: counts of values by ranges, in a map whose keys are the texts of
the ranges, parsed again for each value.

With bounds that are strictly increasing integers, the counts are those of the intervals between the
bounds exactly when each value that was logged since the last clear is `Placed`
(`newNumberHistogram_counts_iff`): the first bound is not negative, or the value is below it, or it
happens to be counted where it belongs. The texts of a negative bound and of the minus sign that
separates the bounds are split at the same place, so that the range of a bucket with a negative
lower bound `-n` is read as `0` to `n`.
-/

open JsonText (Str)
namespace ShardusNet.Node

/-- `Histogram<T>`. The buckets are in the order of the map. -/
structure Histogram (T : Type*) where
  buckets : List (Str × ℕ)
  bucketRanges : List JsNumber
  comparator : T → JsNumber → JsNumber → Bool

/-- The upper end of a bucket: the next bound, when there is one that is truthy. -/
def rangeEnd (next : Option JsNumber) : JsNumber := (next.filter JsNumber.truthy).getD .posInf

/-- The key of a bucket. -/
def bucketKey (rangeStart rangeEnd : JsNumber) : Str := rangeStart.toText ++ 0x2d :: rangeEnd.toText

/-- `bucket.split('-').map(Number)`, the first two. -/
def splitKey (bucket : Str) : JsNumber × JsNumber :=
  match (bucket.splitOn 0x2d).map JsNumber.ofText with
  | rangeStart :: rangeEnd :: _ => (rangeStart, rangeEnd)
  | [rangeStart] => (rangeStart, .nan)
  | [] => (.nan, .nan)

namespace Histogram
variable {T : Type*}

/-- `initializeBuckets`. -/
def initializeBuckets (buckets : List (Str × ℕ)) : List JsNumber → List (Str × ℕ)
  | [] => buckets
  | b :: bs => initializeBuckets (Entries.set (bucketKey b (rangeEnd bs.head?)) 0 buckets) bs

/-- The constructor. -/
def new (bucketRanges : List JsNumber) (comparator : T → JsNumber → JsNumber → Bool) :
    Histogram T where
  buckets := initializeBuckets [] bucketRanges
  bucketRanges := bucketRanges
  comparator := comparator

/-- Whether a value is in the range that the key of a bucket is read as. -/
def accepts (comparator : T → JsNumber → JsNumber → Bool) (value : T) (bucket : Str) : Bool :=
  comparator value (splitKey bucket).1 (splitKey bucket).2

/-- `logData`. -/
def logData (h : Histogram T) (value : T) : Histogram T :=
  match h.buckets.find? fun b => accepts h.comparator value b.1 with
  | some (bucket, count) => { h with buckets := Entries.set bucket (count + 1) h.buckets }
  | none => h

/-- `clearHistogram`. -/
def clearHistogram (h : Histogram T) : Histogram T :=
  { h with buckets := h.buckets.map fun b => (b.1, 0) }

end Histogram

/-- The comparator of `NewNumberHistogram`. -/
def inRange (value rangeStart rangeEnd : JsNumber) : Bool :=
  rangeStart.le value && value.lt rangeEnd

/-- `NewNumberHistogram`, without its timer. -/
def newNumberHistogram (bucketRanges : List JsNumber) : Histogram JsNumber :=
  .new bucketRanges inRange

/-- What happens to a histogram: a value is logged, or the timer clears it. -/
inductive HistogramEvent (T : Type*) where
  | log (value : T)
  | clear

namespace Histogram
variable {T : Type*}

/-- What a log or a clear does. -/
def handle (h : Histogram T) : HistogramEvent T → Histogram T
  | .log value => h.logData value
  | .clear => h.clearHistogram

/-- A histogram after some logs and clears. -/
def run (h : Histogram T) (es : List (HistogramEvent T)) : Histogram T := es.foldl handle h

end Histogram

/-- The values logged since the last clear. -/
def sinceClear {T : Type*} (es : List (HistogramEvent T)) : List T :=
  es.foldl (fun values e => match e with
    | .log value => values ++ [value]
    | .clear => []) []

/-! ## Runs -/

/-- The keys of the buckets, each named by two neighbouring bounds. -/
def bucketKeys : List JsNumber → List Str
  | [] => []
  | b :: bs => bucketKey b (rangeEnd bs.head?) :: bucketKeys bs

/-- The buckets are set to 0 under their keys. -/
lemma Histogram.initializeBuckets_eq (buckets ranges) :
    Histogram.initializeBuckets buckets ranges =
      Entries.setAll buckets ((bucketKeys ranges).map fun k => (k, 0)) := by
  induction ranges generalizing buckets with
  | nil => rfl
  | cons b bs ih => exact ih _

namespace Histogram
variable {T : Type*} {comparator : T → JsNumber → JsNumber → Bool} {keys : List Str}

/-- The bucket that counts a value. -/
def place (comparator : T → JsNumber → JsNumber → Bool) (keys : List Str) (value : T) :
    Option Str :=
  keys.find? (accepts comparator value)

/-- Each bucket has the number of the values that it counts. -/
structure Holds (comparator : T → JsNumber → JsNumber → Bool) (keys : List Str) (h : Histogram T)
    (values : List T) : Prop where
  comparator_eq : h.comparator = comparator
  buckets_eq : h.buckets =
    keys.map fun k => (k, values.countP fun v => place comparator keys v = some k)

/-- A value that is logged is counted by its bucket. -/
lemma Holds.logData {h : Histogram T} {values} (hkeys : keys.Nodup)
    (hh : Holds comparator keys h values)
    (value) : Holds comparator keys (h.logData value) (values ++ [value]) := by
  obtain ⟨rfl, hbuckets⟩ := hh
  have hfind : (h.buckets.find? fun b => accepts h.comparator value b.1) =
      (place h.comparator keys value).map fun k =>
        (k, values.countP fun v => place h.comparator keys v = some k) := by
    rw [hbuckets, List.find?_map]
    rfl
  unfold Histogram.logData
  rw [hfind]
  cases hplace : place h.comparator keys value with
  | none =>
    refine ⟨rfl, ?_⟩
    rw [Option.map_none, hbuckets]
    refine List.map_congr_left fun k _ => ?_
    rw [List.countP_append, List.countP_singleton, hplace]
    rfl
  | some bucket =>
    refine ⟨rfl, ?_⟩
    simp only [Option.map_some]
    rw [hbuckets, Entries.set_map hkeys (List.mem_of_find?_eq_some hplace)]
    refine List.map_congr_left fun k _ => ?_
    rw [List.countP_append, List.countP_singleton, hplace]
    by_cases e : k = bucket
    · simp [e]
    · simp [e, Ne.symm e]

/-- After a clear nothing is counted. -/
lemma Holds.clearHistogram {h : Histogram T} {values} (hh : Holds comparator keys h values) :
    Holds comparator keys h.clearHistogram [] := by
  refine ⟨hh.comparator_eq, ?_⟩
  rw [Histogram.clearHistogram, hh.buckets_eq, List.map_map]
  rfl

/-- After any events, each bucket has the number of the values since the last clear that it
    counts. -/
lemma Holds.run {h : Histogram T} (hkeys : keys.Nodup) (hh : Holds comparator keys h []) (es) :
    Holds comparator keys (h.run es) (sinceClear es) := by
  induction es using List.reverseRecOn with
  | nil => exact hh
  | append_singleton es e ih =>
    rw [Histogram.run, sinceClear, List.foldl_concat, List.foldl_concat]
    cases e with
    | log value => exact ih.logData hkeys value
    | clear => exact ih.clearHistogram

/-- A new histogram has counted nothing. -/
lemma new_holds {ranges} (h : (bucketKeys ranges).Nodup) :
    Holds comparator (bucketKeys ranges) (.new ranges comparator) [] := by
  refine ⟨rfl, ?_⟩
  have hkeys : ((bucketKeys ranges).map fun k => (k, 0)).map Prod.fst = bucketKeys ranges := by
    rw [List.map_map]
    exact List.map_id _
  rw [Histogram.new, initializeBuckets_eq, Entries.setAll_of_nodup [] (by rw [hkeys]; exact h)]
  rfl

end Histogram

/-! ## The keys of integer bounds -/

open Intervals JsNumber

/-- The key of the bucket of an interval. -/
def intervalKey (r : ℤ × Option ℤ) : Str := bucketKey (ofInt r.1) (rangeEnd (r.2.map ofInt))

/-- Each interval has its key. -/
lemma bucketKeys_eq (bounds : List ℤ) :
    bucketKeys (bounds.map ofInt) = (intervals bounds).map intervalKey := by
  induction bounds with
  | nil => rfl
  | cons b bs ih =>
    rw [List.map_cons, bucketKeys, ih, intervals, List.map_cons, intervalKey, List.head?_map]

/-- The ends of an interval are numbers, in order. -/
structure Sound (r : ℤ × Option ℤ) : Prop where
  start : IsDouble r.1
  stop : ∀ hi, r.2 = some hi → IsDouble hi
  lt : ∀ hi, r.2 = some hi → r.1 < hi

/-- The text of a natural number has no minus sign. -/
lemma minus_not_mem_ofInt {n : ℤ} (hn : 0 ≤ n) (h : IsDouble n) : 0x2d ∉ (ofInt n).toText := by
  rcases hn.eq_or_lt with rfl | hn
  · decide
  · exact minus_not_mem_toText (by exact_mod_cast hn) h

/-- The end of an interval that begins at 0 or later. -/
lemma rangeEnd_eq {r} (hr : Sound r) (hlo : 0 ≤ r.1) :
    rangeEnd (r.2.map ofInt) = (r.2.map ofInt).getD .posInf := by
  obtain ⟨lo, hi⟩ := r
  cases hi with
  | none => rfl
  | some hi =>
    have hlt := hr.lt hi rfl
    have htruthy : (ofInt hi).truthy = true := by
      rw [ofInt, truthy, decide_eq_true_eq]
      exact_mod_cast (lt_of_le_of_lt hlo hlt).ne'
    rw [rangeEnd, Option.map_some, Option.filter_some, if_pos htruthy]

/-- A key with no negative bound splits into its two bounds. -/
lemma splitOn_of_nonneg {r} (hr : Sound r) (hlo : 0 ≤ r.1) :
    (intervalKey r).splitOn 0x2d = [(ofInt r.1).toText, ((r.2.map ofInt).getD .posInf).toText] := by
  have hend : 0x2d ∉ ((r.2.map ofInt).getD .posInf).toText := by
    cases hcase : r.2 with
    | none => decide
    | some hi => exact minus_not_mem_ofInt (hlo.trans (hr.lt hi hcase).le) (hr.stop hi hcase)
  rw [intervalKey, bucketKey,
    List.splitOn_append_cons_self_of_not_mem (minus_not_mem_ofInt hlo hr.start),
    rangeEnd_eq hr hlo, List.splitOn_eq_singleton hend]

/-- The key of an interval that starts below zero is split at the sign of its lower end. -/
lemma splitOn_of_neg {r} (hr : Sound r) (hlo : r.1 < 0) :
    ∃ pieces, (intervalKey r).splitOn 0x2d = [] :: (ofInt (-r.1)).toText :: pieces := by
  have hpos : (0 : ℚ) < -(r.1 : ℚ) := by exact_mod_cast neg_pos.mpr hlo
  have htext : (ofInt r.1).toText = 0x2d :: (ofInt (-r.1)).toText := by
    rw [ofInt, ofInt, toText, toText, Int.cast_neg]
    rw [if_neg (by exact_mod_cast hlo.ne), if_pos (by exact_mod_cast hlo), if_neg hpos.ne',
      if_neg (not_lt.mpr hpos.le)]
  have hminus := minus_not_mem_ofInt (neg_nonneg.mpr hlo.le)
    (by rw [Int.cast_neg]; exact isDouble_neg.mpr hr.start)
  refine ⟨(rangeEnd (r.2.map ofInt)).toText.splitOn 0x2d, ?_⟩
  rw [intervalKey, bucketKey, htext, List.cons_append]
  have hfirst := List.splitOn_append_cons_self_of_not_mem (a := (0x2d : UInt16)) List.not_mem_nil
    ((ofInt (-r.1)).toText ++ 0x2d :: (rangeEnd (r.2.map ofInt)).toText)
  rw [List.nil_append] at hfirst
  rw [hfirst, List.splitOn_append_cons_self_of_not_mem hminus]

/-- The range that the key of an interval is read as. -/
def readAs (r : ℤ × Option ℤ) : ℤ × Option ℤ := if 0 ≤ r.1 then r else (0, some (-r.1))

/-- What is read back from the key of an interval. -/
lemma splitKey_eq {r} (hr : Sound r) :
    splitKey (intervalKey r) = (ofInt (readAs r).1, ((readAs r).2.map ofInt).getD .posInf) := by
  unfold readAs
  split
  case isTrue hlo =>
    have hstart : ofText (ofInt r.1).toText = ofInt r.1 := ofText_toText hr.start
    have hend : ofText ((r.2.map ofInt).getD .posInf).toText = (r.2.map ofInt).getD .posInf := by
      cases hcase : r.2 with
      | none => decide
      | some hi => exact ofText_toText (hr.stop hi hcase)
    rw [splitKey, splitOn_of_nonneg hr hlo, List.map_cons, List.map_cons, hstart, hend]
  case isFalse hlo =>
    obtain ⟨pieces, hpieces⟩ := splitOn_of_neg hr (not_le.mp hlo)
    have hend : ofText (ofInt (-r.1)).toText = ofInt (-r.1) :=
      ofText_toText (by rw [Int.cast_neg]; exact isDouble_neg.mpr hr.start)
    have hstart : ofText [] = ofInt 0 := rfl
    rw [splitKey, hpieces, List.map_cons, List.map_cons, hstart, hend]
    rfl

/-- The key of an interval tells its lower end. -/
lemma intervalKey_inj {r r'} (hr : Sound r) (hr' : Sound r') (h : intervalKey r = intervalKey r') :
    r.1 = r'.1 := by
  have htext : ∀ {n m : ℤ}, IsDouble n → IsDouble m → (ofInt n).toText = (ofInt m).toText →
      n = m := by
    intro n m hn hm e
    have := congrArg ofText e
    rw [ofInt, ofInt, ofText_toText hn, ofText_toText hm, JsNumber.finite.injEq] at this
    exact_mod_cast this
  have hnil : ∀ {n : ℤ}, IsDouble n → (ofInt n).toText ≠ [] := by
    intro n hn e
    obtain ⟨_, hnumber, _⟩ := number_toText hn
    rw [← ofInt, e] at hnumber
    cases hnumber
  have hneg : ∀ {r}, Sound r → IsDouble (-r.1 : ℤ) := by
    intro r hr
    rw [Int.cast_neg]
    exact isDouble_neg.mpr hr.start
  have hsplit := congrArg (List.splitOn 0x2d) h
  rcases le_or_gt 0 r.1 with hlo | hlo <;> rcases le_or_gt 0 r'.1 with hlo' | hlo'
  · rw [splitOn_of_nonneg hr hlo, splitOn_of_nonneg hr' hlo'] at hsplit
    exact htext hr.start hr'.start (List.cons.inj hsplit).1
  · obtain ⟨pieces', hpieces'⟩ := splitOn_of_neg hr' hlo'
    rw [splitOn_of_nonneg hr hlo, hpieces'] at hsplit
    exact absurd (List.cons.inj hsplit).1 (hnil hr.start)
  · obtain ⟨pieces, hpieces⟩ := splitOn_of_neg hr hlo
    rw [splitOn_of_nonneg hr' hlo', hpieces] at hsplit
    exact absurd (List.cons.inj hsplit).1.symm (hnil hr'.start)
  · obtain ⟨pieces, hpieces⟩ := splitOn_of_neg hr hlo
    obtain ⟨pieces', hpieces'⟩ := splitOn_of_neg hr' hlo'
    rw [hpieces, hpieces'] at hsplit
    have := htext (hneg hr) (hneg hr') (List.cons.inj (List.cons.inj hsplit).2).1
    omega

/-- Bounds that are numbers, strictly increasing. -/
structure Bounds (bounds : List ℤ) : Prop where
  isDouble : ∀ b ∈ bounds, IsDouble b
  increasing : bounds.Pairwise (· < ·)

variable {bounds : List ℤ}

/-- The intervals of the bounds are sound. -/
lemma Bounds.sound (h : Bounds bounds) {r} (hr : r ∈ intervals bounds) : Sound r where
  start := h.isDouble _ (fst_mem hr)
  stop _ hhi := h.isDouble _ (snd_mem hr hhi)
  lt _ hhi := fst_lt h.increasing hr hhi

/-- Distinct bounds have distinct keys. -/
lemma Bounds.nodup (h : Bounds bounds) : (bucketKeys (bounds.map ofInt)).Nodup := by
  rw [bucketKeys_eq, List.Nodup, List.pairwise_map]
  refine (intervals_pairwise h.increasing).imp_of_mem fun hr hr' hlt e => ?_
  exact hlt.ne (intervalKey_inj (h.sound hr) (h.sound hr') e)

/-- A bucket accepts the values in the interval that is read back from its key. -/
lemma accepts_iff {r v} (hr : Sound r) :
    Histogram.accepts inRange (ofInt v) (intervalKey r) = true ↔ Within (readAs r) v := by
  have hstop : ∀ stop : Option ℤ, (ofInt v).lt ((stop.map ofInt).getD .posInf) = true ↔
      ∀ hi ∈ stop, v < hi := by
    intro stop
    cases stop with
    | none => simp [ofInt, finite_lt_posInf]
    | some hi => simp [ofInt, finite_lt]
  rw [Histogram.accepts, splitKey_eq hr, inRange, Bool.and_eq_true, hstop, ofInt, ofInt, finite_le,
    Within]
  exact_mod_cast Iff.rfl

/-! ## The counts -/

/-- The interval whose bucket counts a value. -/
def counter (bounds : List ℤ) (v : ℤ) : Option (ℤ × Option ℤ) :=
  (intervals bounds).find? fun r => Within (readAs r) v

/-- The bucket of a value is that of the interval that counts it. -/
lemma place_eq (h : Bounds bounds) (v : ℤ) :
    Histogram.place inRange ((intervals bounds).map intervalKey) (ofInt v) =
      (counter bounds v).map intervalKey := by
  rw [Histogram.place, List.find?_map, counter]
  congr 1
  refine List.find?_congr fun r hr => ?_
  rw [Function.comp_apply, Bool.eq_iff_iff, accepts_iff (h.sound hr), decide_eq_true_eq]

/-- The interval that counts a value is one of the bounds' intervals. -/
lemma counter_mem {v r} (h : counter bounds v = some r) :
    r ∈ intervals bounds ∧ Within (readAs r) v :=
  ⟨List.mem_of_find?_eq_some h, by simpa using List.find?_some h⟩

/-- After any events, each bucket has the number of the values since the last clear that it
    counts. -/
lemma run_counts (h : Bounds bounds) {es} {values : List ℤ}
    (hvalues : sinceClear es = values.map ofInt) :
    ((newNumberHistogram (bounds.map ofInt)).run es).buckets.map Prod.snd =
      (intervals bounds).map fun r => values.countP fun v => counter bounds v = some r := by
  have hholds : Histogram.Holds inRange (bucketKeys (bounds.map ofInt))
      ((newNumberHistogram (bounds.map ofInt)).run es) (sinceClear es) :=
    Histogram.Holds.run h.nodup (Histogram.new_holds h.nodup) es
  rw [hholds.buckets_eq, hvalues, bucketKeys_eq, List.map_map, List.map_map]
  refine List.map_congr_left fun r hr => ?_
  simp only [Function.comp_apply, List.countP_map]
  refine List.countP_congr fun v _ => ?_
  rw [Function.comp_apply, decide_eq_true_eq, decide_eq_true_eq, place_eq h]
  constructor
  · intro e
    obtain ⟨r', hr', e⟩ := Option.map_eq_some_iff.mp e
    have hmem := (counter_mem hr').1
    rw [hr', eq_of_fst_eq h.increasing hmem hr (intervalKey_inj (h.sound hmem) (h.sound hr) e)]
  · intro e
    rw [e, Option.map_some]

/-- The counts of the buckets are those of the intervals, which part the values from the first bound
    on. -/
def Counts (b : ℤ) (bs values : List ℤ) (counts : List ℕ) : Prop :=
  counts.length = (b :: bs).length ∧
    counts = (intervals (b :: bs)).map (fun r => values.countP fun v => Within r v) ∧
    counts.sum = values.countP fun v => b ≤ v

/-- A value that is counted where it belongs. -/
def Placed (b : ℤ) (bs : List ℤ) (v : ℤ) : Prop :=
  0 ≤ b ∨ v < b ∨ (0 ≤ v ∧ v < -b ∧ ∀ b' ∈ bs.head?, v < b') ∨ (-b ≤ v ∧ ∃ b' ∈ bs, 0 ≤ b' ∧ b' ≤ v)

section
variable {b v : ℤ} {bs : List ℤ}

/-- The first bucket takes the values up to the absolute value of a negative bound. -/
lemma counter_first (hb : b < 0) (hv : 0 ≤ v) (hlt : v < -b) :
    counter (b :: bs) v = some (b, bs.head?) := by
  have hwithin : Within (readAs (b, bs.head?)) v := by
    rw [readAs, if_neg (not_le.mpr hb)]
    exact ⟨hv, fun hi e => by cases e; exact hlt⟩
  rw [counter, intervals, List.find?_cons_of_pos (by simpa using hwithin)]

/-- A value that is counted is not below the first bound, and counted in the first bucket or where
    it belongs. -/
lemma counter_within (hbs : (b :: bs).Pairwise (· < ·)) {r} (h : counter (b :: bs) v = some r) :
    b ≤ v ∧ (r = (b, bs.head?) ∨ Within r v) := by
  obtain ⟨hr, hwithin⟩ := counter_mem h
  have hle : b ≤ r.1 := le_of_mem hbs (fst_mem hr)
  unfold readAs at hwithin
  split at hwithin
  case isTrue hlo => exact ⟨hle.trans hwithin.1, .inr hwithin⟩
  case isFalse hlo =>
    have hv : 0 ≤ v := hwithin.1
    have hlt : v < -r.1 := hwithin.2 _ rfl
    rw [counter_first (by omega) hv (by omega), Option.some_inj] at h
    exact ⟨by omega, .inl h.symm⟩

/-- Each value of these is counted by the bucket of its interval. -/
def Proper (bounds : List ℤ) (v : ℤ) : Prop :=
  ∀ r ∈ intervals bounds, counter bounds v = some r ↔ Within r v

/-- A value that is placed well is counted where it lies. -/
lemma Placed.proper (hbs : (b :: bs).Pairwise (· < ·)) (h : Placed b bs v) :
    Proper (b :: bs) v := by
  have hle : ∀ r ∈ intervals (b :: bs), b ≤ r.1 := fun r hr => le_of_mem hbs (fst_mem hr)
  -- where the keys of all intervals that could take the value are read as they are
  have hread : (∀ r ∈ intervals (b :: bs), Within (readAs r) v ↔ Within r v) →
      Proper (b :: bs) v := by
    intro hread r hr
    rw [counter, find?_eq_some_iff, decide_eq_true_eq, hread r hr]
    · exact ⟨fun h => h.2, fun h => ⟨hr, h⟩⟩
    · intro x hx y hy hxv hyv
      rw [decide_eq_true_eq] at hxv hyv
      exact within_unique hbs hx hy ((hread x hx).mp hxv) ((hread y hy).mp hyv)
  rcases h with hb | hlt | ⟨hv, hlt, hnext⟩ | ⟨hge, b', hb', hzero, hle'⟩
  · refine hread fun r hr => ?_
    rw [readAs, if_pos (hb.trans (hle r hr))]
  · intro r hr
    constructor
    · intro hcounter
      exact absurd (counter_within hbs hcounter).1 (not_le.mpr hlt)
    · intro hwithin
      exact absurd ((hle r hr).trans hwithin.1) (not_le.mpr hlt)
  · intro r hr
    have hfirst : Within (b, bs.head?) v := ⟨by change b ≤ v; omega, hnext⟩
    rw [counter_first (by omega) hv hlt, Option.some_inj]
    constructor
    · rintro rfl
      exact hfirst
    · intro hwithin
      exact within_unique hbs List.mem_cons_self hr hfirst hwithin
  · refine hread fun r hr => ?_
    unfold readAs
    split
    case isTrue => rfl
    case isFalse hneg =>
      constructor
      · intro hwithin
        have hlt : v < -r.1 := hwithin.2 _ rfl
        have := hle r hr
        omega
      · intro hwithin
        have := le_fst hbs hr hwithin (List.mem_cons_of_mem _ hb') hle'
        omega

/-- A value is placed when it is counted by the bucket of its interval. -/
lemma Proper.placed (hbs : (b :: bs).Pairwise (· < ·)) (h : Proper (b :: bs) v) :
    Placed b bs v := by
  rcases le_or_gt 0 b with hb | hb
  · exact .inl hb
  rcases lt_or_ge v b with hlt | hge
  · exact .inr (.inl hlt)
  obtain ⟨r, hr, hwithin⟩ := exists_within bs hge
  have hcounter := (h r hr).mpr hwithin
  have hread := (counter_mem hcounter).2
  have hfirst : 0 ≤ v → v < -b → r = (b, bs.head?) := by
    intro hv hlt
    rw [counter_first hb hv hlt, Option.some_inj] at hcounter
    exact hcounter.symm
  unfold readAs at hread
  split at hread
  case isTrue hlo =>
    -- a value this low would be counted in the first bucket
    have hv : 0 ≤ v := hlo.trans hwithin.1
    have hne : r ≠ (b, bs.head?) := by
      rintro rfl
      exact absurd hlo (not_le.mpr hb)
    have hge : -b ≤ v := not_lt.mp fun hlt => hne (hfirst hv hlt)
    refine .inr (.inr (.inr ⟨hge, r.1, ?_, hlo, hwithin.1⟩))
    exact (List.mem_cons.mp (fst_mem hr)).resolve_left fun e => absurd (e ▸ hlo) (not_le.mpr hb)
  case isFalse hlo =>
    have hv : 0 ≤ v := hread.1
    have hlt : v < -r.1 := hread.2 _ rfl
    have hle : b ≤ r.1 := le_of_mem hbs (fst_mem hr)
    have e := hfirst hv (by omega)
    rw [e] at hwithin hlt
    exact .inr (.inr (.inl ⟨hv, hlt, hwithin.2⟩))

/-- With the right counts, each value is counted by the bucket of its interval. -/
lemma Counts.proper {values : List ℤ} (hbs : (b :: bs).Pairwise (· < ·))
    (hcounts : ∀ r ∈ intervals (b :: bs),
      (values.countP fun v => counter (b :: bs) v = some r) = values.countP fun v => Within r v)
    (hsum : (values.countP fun v => (counter (b :: bs) v).isSome) = values.countP fun v => b ≤ v) :
    ∀ v ∈ values, Proper (b :: bs) v := by
  -- every value from the first bound on is counted, as none below it is
  have hsome : ∀ v ∈ values, b ≤ v → ∃ r, counter (b :: bs) v = some r := by
    intro v hv hle
    have hcounted : ∀ v ∈ values, (counter (b :: bs) v).isSome = true → b ≤ v := by
      intro v _ hcounted
      obtain ⟨r, hr⟩ := Option.isSome_iff_exists.mp hcounted
      exact (counter_within hbs hr).1
    exact Option.isSome_iff_exists.mp (of_countP_eq hcounted (by simpa using hsum) v hv hle)
  -- the later buckets count nothing that does not belong to them, so all that does
  have hlater : ∀ r ∈ intervals (b :: bs), r ≠ (b, bs.head?) → ∀ v ∈ values, Within r v →
      counter (b :: bs) v = some r := by
    intro r hr hne
    refine of_countP_eq (fun v _ hcounter => ?_) (hcounts r hr)
    exact (counter_within hbs hcounter).2.resolve_left hne
  intro v hv r hr
  constructor
  · intro hcounter
    obtain ⟨hle, rfl | hwithin⟩ := counter_within hbs hcounter
    · obtain ⟨r', hr', hwithin⟩ := exists_within bs hle
      by_cases hne : r' = (b, bs.head?)
      · exact hne ▸ hwithin
      · rw [hlater r' hr' hne v hv hwithin, Option.some_inj] at hcounter
        exact absurd hcounter hne
    · exact hwithin
  · intro hwithin
    obtain ⟨r', hr'⟩ := hsome v hv ((le_of_mem hbs (fst_mem hr)).trans hwithin.1)
    by_cases hne : r = (b, bs.head?)
    · rcases (counter_within hbs hr').2 with e | hwithin'
      · rw [hr', e, hne]
      · rw [hr', within_unique hbs (counter_mem hr').1 hr hwithin' hwithin]
    · exact hlater r hr hne v hv hwithin

end

/-- With bounds that are strictly increasing integers, the counts after any events are those of the
    intervals exactly when each value that was logged since the last clear is placed. -/
theorem newNumberHistogram_counts_iff {b : ℤ} {bs : List ℤ} (h : Bounds (b :: bs))
    {es : List (HistogramEvent JsNumber)} {values : List ℤ}
    (hvalues : sinceClear es = values.map ofInt) :
    Counts b bs values (((newNumberHistogram ((b :: bs).map ofInt)).run es).buckets.map Prod.snd) ↔
      ∀ v ∈ values, Placed b bs v := by
  have hnodup : (intervals (b :: bs)).Nodup :=
    (intervals_pairwise h.increasing).imp fun hlt e => hlt.ne (congrArg Prod.fst e)
  have hmem : ∀ v ∈ values, ∀ r, counter (b :: bs) v = some r → r ∈ intervals (b :: bs) :=
    fun v _ r hr => (counter_mem hr).1
  have hsum := sum_countP hnodup hmem
  rw [run_counts h hvalues, Counts, hsum, List.map_inj_left]
  constructor
  · rintro ⟨_, hcounts, hsum⟩ v hv
    exact (Counts.proper h.increasing hcounts hsum v hv).placed h.increasing
  · intro hplaced
    have hproper := fun v hv => (hplaced v hv).proper h.increasing
    refine ⟨?_, fun r hr => ?_, ?_⟩
    · rw [List.length_map, ← List.length_map (f := Prod.fst), intervals_map_fst]
    · exact List.countP_congr fun v hv => by simpa using hproper v hv r hr
    · refine List.countP_congr fun v hv => ?_
      rw [decide_eq_true_eq, Option.isSome_iff_exists]
      constructor
      · rintro ⟨r, hr⟩
        exact (counter_within h.increasing hr).1
      · intro hle
        obtain ⟨r, hr, hwithin⟩ := exists_within bs hle
        exact ⟨r, (hproper v hv r hr).mpr hwithin⟩

/-- The bounds -5, 0 and 10. -/
lemma bounds_ten : Bounds [-5, 0, 10] := ⟨by decide +kernel, by decide⟩

/-- Of the values since the last clear, 12 is counted where it lies, and -7, below all bounds,
    nowhere. -/
theorem newNumberHistogram_counts_iff_ten :
    Bounds [-5, 0, 10] ∧
      sinceClear [.log (ofInt 3), .clear, .log (ofInt 12), .log (ofInt (-7))] = [12, -7].map ofInt ∧
      (Counts (-5) [0, 10] [12, -7] (((newNumberHistogram ([-5, 0, 10].map ofInt)).run
          [.log (ofInt 3), .clear, .log (ofInt 12), .log (ofInt (-7))]).buckets.map Prod.snd) ↔
        ∀ v ∈ [12, -7], Placed (-5) [0, 10] v) :=
  ⟨bounds_ten, rfl, newNumberHistogram_counts_iff bounds_ten rfl⟩

/-- The first bucket of these bounds, of `-5` to `-1`, does not count `-5`. -/
theorem newNumberHistogram_counts_fails_negative :
    Bounds [-5, 0, 10] ∧ sinceClear [.log (ofInt (-5))] = [-5].map ofInt ∧
      ¬Counts (-5) [0, 10] [-5]
        (((newNumberHistogram ([-5, 0, 10].map ofInt)).run [.log (ofInt (-5))]).buckets.map Prod.snd) := by
  refine ⟨bounds_ten, rfl, fun h => ?_⟩
  have hsum := h.2.2
  revert hsum
  decide +kernel

end ShardusNet.Node
