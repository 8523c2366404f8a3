import ShardusNet.Binding.Outstanding
import ShardusNet.Lib.Checked
import Mathlib.Order.MinMax
import Mathlib.Data.List.Perm.Basic
/-!
# What a ring buffer reports

Port of `RingBuffer::get_stats` in `shardus_net/src/ring_buffer.rs` and of `Stats::get_stats` in
`shardus_net/src/stats.rs`. The type of the values is a parameter; what `get_stats` asks of it
beside its order is a `Summand`, with `usize` and `Duration` as instances.

* `Holds`: after the values `vs`, the buffer from the index on and then up to the index is the last
  `n` of them.
* `getStats_puts`: no write is out of bounds, the buffer holds the last `n` values, and these are
  what the statistics are of; the long-term ones are of all values.
* `getStats_run`: the statistics of a binding on received messages, in every run.
-/

namespace ShardusNet.Binding
open Checked Runs

/-- `ring_buffer::Stats<T>`. -/
structure RingBufferStats (α : Type) where
  longTermMax : α
  longTermMin : α
  min : α
  max : α
  total : α
  count : ℕ

/-- The `Default` and the `Sum<T>` of a type, whose values stand for numbers: a sum that is below
    the bound is exact. -/
structure Summand (α : Type) where
  default : α
  sum : List α → Outcome α
  toNat : α → ℕ
  bound : ℕ
  sum_exact : ∀ l, (l.map toNat).sum < bound →
    ∃ total, (sum l).Exact total ∧ toNat total = (l.map toNat).sum

/-- The last `n` values. -/
def window {α : Type*} (n : ℕ) (vs : List α) : List α := vs.drop (vs.length - n)

namespace RingBuffer
variable {α : Type}

/-- The index at which `put` writes. -/
def writeIndex (r : RingBuffer α) : ℕ := if r.index = r.size then 0 else r.index

variable [LinearOrder α]

/-- `RingBuffer::get_stats`. -/
def getStats (T : Summand α) (r : RingBuffer α) : Outcome (RingBufferStats α) := do
  let total ← T.sum r.buffer
  let count := r.buffer.length
  return { longTermMax := r.longTermMax.getD T.default
           longTermMin := r.longTermMin.getD T.default
           min := r.buffer.min?.getD T.default
           max := r.buffer.max?.getD T.default
           total
           count }

/-- A new ring buffer after these values. -/
def puts (n : ℕ) (vs : List α) : RingBuffer α := vs.foldl put (.new n)

/-- A ring buffer after these values: it is filled up to the index until it is full, and from the
    index on the oldest of the last `n` values come first. -/
structure Holds (n : ℕ) (vs : List α) (r : RingBuffer α) : Prop where
  size : r.size = n
  length : r.buffer.length = min vs.length n
  index_le : r.index ≤ r.buffer.length
  filled : r.buffer.length < n → r.index = r.buffer.length
  values : r.buffer.drop r.index ++ r.buffer.take r.index = window n vs
  longTermMax : r.longTermMax = vs.max?
  longTermMin : r.longTermMin = vs.min?

end RingBuffer

/-! ## The last values -/

section
variable {α : Type*}

/-- The window has all values until it is full. -/
lemma length_window (n : ℕ) (vs : List α) : (window n vs).length = min vs.length n := by
  rw [window, List.length_drop]
  omega

/-- While the buffer is not full, one value more is one more of the last. -/
lemma window_concat_of_lt {n : ℕ} {vs : List α} (h : vs.length < n) (v : α) :
    window n (vs ++ [v]) = window n vs ++ [v] := by
  have hold : vs.length - n = 0 := by omega
  have hnew : (vs ++ [v]).length - n = 0 := by
    rw [List.length_append, List.length_singleton]
    omega
  rw [window, window, hold, hnew]
  rfl

/-- When it is full, one value more takes the place of the oldest. -/
lemma window_concat_of_le {n : ℕ} {vs : List α} (h : n ≤ vs.length) (hn : 0 < n) (v : α) :
    window n (vs ++ [v]) = (window n vs).tail ++ [v] := by
  have hlen : (vs ++ [v]).length - n = vs.length - n + 1 := by
    rw [List.length_append, List.length_singleton]
    omega
  rw [window, window, hlen, List.tail_drop, List.drop_append_of_le_length (by omega)]

/-- A write over the oldest value, which then is the newest. -/
lemma rotate_set {l : List α} {i : ℕ} (hi : i < l.length) (v : α) :
    (l.set i v).drop (i + 1) ++ (l.set i v).take (i + 1) = (l.drop i ++ l.take i).tail ++ [v] := by
  have hdrop : (l.set i v).drop (i + 1) = l.drop (i + 1) := List.drop_set_of_lt (Nat.lt_succ_self i)
  have htake : (l.set i v).take (i + 1) = l.take i ++ [v] := by
    rw [List.take_add_one, List.take_set_of_le (le_refl i), List.getElem?_set_self hi]
    rfl
  rw [hdrop, htake, List.drop_eq_getElem_cons hi, List.cons_append, List.tail_cons,
    List.append_assoc]

variable [LinearOrder α]

/-- The largest of the values with one more. -/
lemma max?_concat (vs : List α) (v : α) : (vs ++ [v]).max? = some (max (vs.max?.getD v) v) := by
  cases vs with
  | nil => simp
  | cons w vs =>
    rw [List.cons_append, List.max?_cons', List.foldl_append]
    rfl

/-- The smallest of the values with one more. -/
lemma min?_concat (vs : List α) (v : α) : (vs ++ [v]).min? = some (min (vs.min?.getD v) v) := by
  cases vs with
  | nil => simp
  | cons w vs =>
    rw [List.cons_append, List.min?_cons', List.foldl_append]
    rfl

/-- The maximum does not depend on the order. -/
lemma max?_of_perm {l l' : List α} (h : l.Perm l') : l.max? = l'.max? := by
  induction h with
  | nil => rfl
  | cons a _ ih => rw [List.max?_cons, List.max?_cons, ih]
  | swap a b l =>
    simp only [List.max?_cons, Option.elim_some]
    cases l.max? with
    | none => simp [max_comm]
    | some c => simp [max_left_comm]
  | trans _ _ ih ih' => rw [ih, ih']

/-- The minimum does not depend on the order. -/
lemma min?_of_perm {l l' : List α} (h : l.Perm l') : l.min? = l'.min? := by
  induction h with
  | nil => rfl
  | cons a _ ih => rw [List.min?_cons, List.min?_cons, ih]
  | swap a b l =>
    simp only [List.min?_cons, Option.elim_some]
    cases l.min? with
    | none => simp [min_comm]
    | some c => simp [min_left_comm]
  | trans _ _ ih ih' => rw [ih, ih']

end

/-! ## Puts -/

namespace RingBuffer
variable {α : Type} [LinearOrder α] {n : ℕ} {vs : List α} {r : RingBuffer α}

/-- A new ring buffer holds nothing. -/
lemma holds_new (n : ℕ) : Holds n [] (.new n : RingBuffer α) where
  size := rfl
  length := (Nat.zero_min n).symm
  index_le := le_refl 0
  filled _ := rfl
  values := List.drop_nil.symm
  longTermMax := rfl
  longTermMin := rfl

/-- The index is never past the end of what was written. -/
lemma Holds.writeIndex_le (h : r.Holds n vs) : r.writeIndex ≤ r.buffer.length := by
  unfold writeIndex
  split
  case isTrue => exact Nat.zero_le _
  case isFalse => exact h.index_le

/-- One value more takes the place of the oldest, when the buffer is full. -/
lemma Holds.put (h : r.Holds n vs) (hn : 0 < n) (v : α) : (r.put v).Holds n (vs ++ [v]) := by
  have hlength := h.length
  have hindex := h.index_le
  have hmax : (r.put v).longTermMax = (vs ++ [v]).max? := by
    rw [max?_concat, ← h.longTermMax]
    rfl
  have hmin : (r.put v).longTermMin = (vs ++ [v]).min? := by
    rw [min?_concat, ← h.longTermMin]
    rfl
  have hcount : (vs ++ [v]).length = vs.length + 1 := by
    rw [List.length_append, List.length_singleton]
  by_cases hpush : r.writeIndex = r.buffer.length
  · -- the buffer is not full: it is filled up to the index
    have hlt : vs.length < n := by
      unfold writeIndex at hpush
      rw [h.size] at hpush
      split at hpush <;> omega
    have hend : r.index = r.buffer.length := h.filled (by omega)
    have hvalues := h.values
    rw [hend, List.drop_length, List.take_length, List.nil_append] at hvalues
    have hbuffer : (r.put v).buffer = r.buffer ++ [v] := if_pos hpush
    have hnext : (r.put v).index = r.buffer.length + 1 := congrArg (· + 1) hpush
    have hlen : (r.put v).buffer.length = r.buffer.length + 1 := by
      rw [hbuffer, List.length_append, List.length_singleton]
    refine ⟨h.size, by omega, by omega, fun _ => by omega, ?_, hmax, hmin⟩
    rw [hnext, ← hlen, List.drop_length, List.take_length, hbuffer, List.nil_append, hvalues,
      window_concat_of_lt hlt]
  · -- the buffer is full: the write is over the oldest value
    have hin : r.writeIndex < r.buffer.length := Nat.lt_of_le_of_ne h.writeIndex_le hpush
    have hfull : r.buffer.length = n := by
      by_contra hne
      have hend := h.filled (by omega)
      unfold writeIndex at hpush
      rw [h.size, if_neg (by omega)] at hpush
      exact hpush hend
    have holdest : r.buffer.drop r.writeIndex ++ r.buffer.take r.writeIndex = window n vs := by
      rw [← h.values]
      unfold writeIndex
      split
      case isTrue hend =>
        rw [hend, h.size, ← hfull, List.drop_length, List.take_length, List.drop_zero, List.take_zero,
          List.append_nil, List.nil_append]
      case isFalse => rfl
    have hbuffer : (r.put v).buffer = r.buffer.set r.writeIndex v := if_neg hpush
    have hnext : (r.put v).index = r.writeIndex + 1 := rfl
    have hlen : (r.put v).buffer.length = r.buffer.length := by rw [hbuffer, List.length_set]
    refine ⟨h.size, by omega, by omega, fun _ => by omega, ?_, hmax, hmin⟩
    rw [hnext, hbuffer, rotate_set hin, holdest, window_concat_of_le (by omega) hn]

/-- A ring buffer holds what was put into it. -/
lemma holds_puts (hn : 0 < n) (vs : List α) : (puts n vs).Holds n vs := by
  induction vs using List.reverseRecOn with
  | nil => exact holds_new n
  | append_singleton vs v ih =>
    rw [puts, List.foldl_append]
    exact ih.put hn v

/-- The buffer holds the last values, in some order. -/
lemma Holds.perm (h : r.Holds n vs) : r.buffer.Perm (window n vs) := by
  rw [← h.values]
  nth_rewrite 1 [← List.take_append_drop r.index r.buffer]
  exact List.perm_append_comm

end RingBuffer

/-! ## Statistics -/

/-- The statistics are of the last `n` values, and in the long term of all values. -/
structure RingBufferStats.Of {α : Type} [LinearOrder α] (T : Summand α) (n : ℕ) (vs : List α)
    (stats : RingBufferStats α) : Prop where
  count : stats.count = Min.min vs.length n
  min : stats.min = (window n vs).min?.getD T.default
  max : stats.max = (window n vs).max?.getD T.default
  longTermMax : stats.longTermMax = vs.max?.getD T.default
  longTermMin : stats.longTermMin = vs.min?.getD T.default

namespace RingBuffer
variable {α : Type} [LinearOrder α] {n : ℕ} {vs : List α} {r : RingBuffer α}

/-- The statistics of a ring buffer are those of the last values put into it. -/
lemma Holds.stats_of (h : r.Holds n vs) (T : Summand α) {stats wrapped}
    (hstats : r.getStats T = .value stats wrapped) : stats.Of T n vs := by
  obtain ⟨total, _, _, _, hvalue⟩ := Outcome.bind_eq_value hstats
  cases hvalue
  exact {
    count := h.length
    min := by rw [min?_of_perm h.perm]
    max := by rw [max?_of_perm h.perm]
    longTermMax := by rw [h.longTermMax]
    longTermMin := by rw [h.longTermMin] }

/-- `get_stats` returns the total of the last values, when it is below the bound. -/
lemma Holds.getStats_exact (h : r.Holds n vs) (T : Summand α)
    (hfits : ((window n vs).map T.toNat).sum < T.bound) :
    ∃ stats, (r.getStats T).Exact stats ∧ T.toNat stats.total =
      ((window n vs).map T.toNat).sum := by
  have hsum : (r.buffer.map T.toNat).sum = ((window n vs).map T.toNat).sum :=
    (h.perm.map T.toNat).sum_eq
  obtain ⟨total, htotal, hval⟩ := T.sum_exact r.buffer (by rw [hsum]; exact hfits)
  exact ⟨_, Outcome.exact_bind.mpr ⟨total, htotal, rfl⟩, hval.trans hsum⟩

/-- After any values, the next write is at the end of the buffer or in it, the buffer holds the last
    `n` values, and what `get_stats` returns is of these, and in the long term of all values. It
    returns when the total fits, and then with this total. -/
theorem getStats_puts (T : Summand α) (hn : 0 < n) (vs : List α) :
    (puts n vs).writeIndex ≤ (puts n vs).buffer.length ∧
    (puts n vs).buffer.Perm (window n vs) ∧ (window n vs).length = min vs.length n ∧
    (∀ stats wrapped, (puts n vs).getStats T = .value stats wrapped → stats.Of T n vs) ∧
    (((window n vs).map T.toNat).sum < T.bound →
      ∃ stats, ((puts n vs).getStats T).Exact stats ∧
        T.toNat stats.total = ((window n vs).map T.toNat).sum) := by
  have h := holds_puts hn vs
  refine ⟨h.writeIndex_le, h.perm, length_window n vs, ?_, h.getStats_exact T⟩
  intro stats wrapped hstats
  exact h.stats_of T hstats

end RingBuffer

/-! ## The statistics of a binding -/

/-- The order of `u64`. -/
instance instLinearOrderUInt64 : LinearOrder UInt64 where
  le_refl := UInt64.le_refl
  le_trans _ _ _ := UInt64.le_trans
  le_antisymm _ _ := UInt64.le_antisymm
  le_total := UInt64.le_total
  lt_iff_le_not_ge a b := by rw [UInt64.not_le, and_iff_right_of_imp UInt64.le_of_lt]
  toDecidableLE := inferInstance

/-- `Sum<usize>`, in a build with overflow checks or without. -/
def usizeSummand (checks : Bool) : Summand UInt64 where
  default := 0
  sum l := do
    let total ← l.foldlM (fun acc a => add checks acc a.toBitVec) 0
    return .ofBitVec total
  toNat := UInt64.toNat
  bound := 2 ^ 64
  sum_exact l hfits := by
    have hzero : (0 : BitVec 64).toNat = 0 := rfl
    obtain ⟨total, htotal, hval⟩ := foldlM_add_exact checks (f := UInt64.toBitVec) (l := l) 0
      (by rw [hzero, Nat.zero_add]; exact hfits)
    refine ⟨.ofBitVec total, Outcome.exact_bind.mpr ⟨total, htotal, rfl⟩, ?_⟩
    rw [hzero, Nat.zero_add] at hval
    exact hval

/-- One `Duration` more in a sum: its seconds are a `u64`, and a sum with more of them panics. -/
def addDuration (total d : ℕ) : Outcome ℕ :=
  if total + d < 2 ^ 64 * 10 ^ 9 then pure (total + d) else .panic

/-- A sum of durations that fits is exact. -/
lemma foldlM_addDuration {l : List ℕ} (total : ℕ) (hfits : total + l.sum < 2 ^ 64 * 10 ^ 9) :
    (l.foldlM addDuration total).Exact (total + l.sum) := by
  induction l generalizing total with
  | nil => rfl
  | cons d l ih =>
    rw [List.sum_cons, ← Nat.add_assoc] at hfits ⊢
    rw [List.foldlM_cons]
    refine Outcome.exact_bind.mpr ⟨total + d, ?_, ih (total + d) hfits⟩
    rw [addDuration, if_pos (by omega)]
    rfl

/-- `Sum<Duration>`. -/
def durationSummand : Summand ℕ where
  default := 0
  sum l := l.foldlM addDuration 0
  toNat := id
  bound := 2 ^ 64 * 10 ^ 9
  sum_exact l hfits := by
    rw [List.map_id] at hfits ⊢
    have h := foldlM_addDuration (l := l) 0 (by rwa [Nat.zero_add])
    rw [Nat.zero_add] at h
    exact ⟨l.sum, h, rfl⟩

/-- `StatsResult`. -/
structure StatsResult where
  outstandingSends : RingBufferStats UInt64
  outstandingReceives : RingBufferStats UInt64
  receiveElapsed : RingBufferStats ℕ

/-- `Stats::get_stats`. -/
def Stats.getStats (checks : Bool) (s : Stats) : Outcome StatsResult := do
  let outstandingSends ← s.outstandingSendsBuffer.getStats (usizeSummand checks)
  let outstandingReceives ← s.outstandingReceivesBuffer.getStats (usizeSummand checks)
  let receiveElapsed ← s.receiveElapsedBuffer.getStats durationSummand
  return { outstandingSends, outstandingReceives, receiveElapsed }

/-- The elapsed time that the callback of a received message records. -/
def Event.elapsed : Event → Option ℕ
  | .deliver elapsed => some elapsed
  | _ => none

/-- The buffers were given these values. -/
structure Stats.Recorded (s : Stats) (sends receives : List UInt64) (elapsed : List ℕ) : Prop where
  sends : s.outstandingSendsBuffer = .puts RING_BUFFER_SIZE sends
  receives : s.outstandingReceivesBuffer = .puts RING_BUFFER_SIZE receives
  elapsed : s.receiveElapsedBuffer = .puts RING_BUFFER_SIZE elapsed

/-- One value more is put last. -/
lemma RingBuffer.puts_concat {α : Type} [LinearOrder α] (n : ℕ) (vs : List α) (v : α) :
    puts n (vs ++ [v]) = (puts n vs).put v := by
  rw [puts, List.foldl_append]
  rfl

/-- An event that is a call of the binding puts no elapsed time. -/
lemma Event.elapsed_of_call {cfg : Config} {e : Event} {tx c} (h : e.call cfg tx = some c) :
    e.elapsed = none := by
  cases e with
  | deliver => cases h
  | _ => rfl

/-- In every run, the times that were recorded are those of the callbacks of received messages, and
    with each time the number of outstanding receives was recorded. -/
lemma recorded_run {cfg : Config} {es : List Event} {s : State} (r : Run (Step cfg) .init es s) :
    ∃ sends receives, s.stats.Recorded sends receives (es.filterMap Event.elapsed) ∧
      receives.length = (es.filterMap Event.elapsed).length := by
  refine r.invariant_along (I := fun es s =>
    ∃ sends receives, s.stats.Recorded sends receives (es.filterMap Event.elapsed) ∧
      receives.length = (es.filterMap Event.elapsed).length) ⟨[], [], ⟨rfl, rfl, rfl⟩, rfl⟩ ?_
  rintro es s e s' ⟨sends, receives, h, hlength⟩ hstep
  have hsame : e.elapsed = none → (es ++ [e]).filterMap Event.elapsed =
      es.filterMap Event.elapsed := by
    intro he
    rw [List.filterMap_append, List.filterMap_cons_none he, List.filterMap_nil, List.append_nil]
  rcases step_cases cfg hstep with ⟨c, hc, rfl⟩ | ⟨tx, aw, rfl, _, rfl⟩ | ⟨tx, rfl, _, rfl⟩ |
    ⟨rfl, rfl⟩ | ⟨elapsed, rfl, _, rfl⟩
  · rw [hsame (Event.elapsed_of_call hc)]
    refine ⟨sends, receives, ?_, hlength⟩
    rw [State.call, Stats.incrementOutstandingSendsTimes_eq]
    exact { h with }
  · rw [hsame rfl]
    exact ⟨sends, receives, h, hlength⟩
  · rw [hsame rfl]
    refine ⟨sends ++ [s.stats.outstandingSends - 1], receives, ?_, hlength⟩
    refine { h with sends := ?_ }
    rw [RingBuffer.puts_concat, ← h.sends]
    rfl
  · rw [hsame rfl]
    exact ⟨sends, receives, { h with }, hlength⟩
  · rw [List.filterMap_append]
    refine ⟨sends, receives ++ [s.stats.outstandingReceives - 1], ⟨h.sends, ?_, ?_⟩, ?_⟩
    · rw [RingBuffer.puts_concat, ← h.receives]
      rfl
    · show s.stats.receiveElapsedBuffer.put elapsed = .puts RING_BUFFER_SIZE (_ ++ [elapsed])
      rw [RingBuffer.puts_concat, ← h.elapsed]
    · rw [List.length_append, List.length_append, hlength]
      rfl

/-- In every run, `get_stats` of a binding reports on the last hundred messages that were received,
    and in the long term on all of them. -/
theorem getStats_run {cfg : Config} {es : List Event} {s : State} (r : Run (Step cfg) .init es s)
    {checks result wrapped} (h : s.stats.getStats checks = .value result wrapped) :
    result.receiveElapsed.Of durationSummand RING_BUFFER_SIZE (es.filterMap Event.elapsed) ∧
      result.outstandingReceives.count = result.receiveElapsed.count := by
  obtain ⟨sends, receives, hrecorded, hlength⟩ := recorded_run r
  have hn : 0 < RING_BUFFER_SIZE := by decide
  obtain ⟨_, _, _, _, h⟩ := Outcome.bind_eq_value h
  obtain ⟨outstandingReceives, _, _, hreceives, h⟩ := Outcome.bind_eq_value h
  obtain ⟨receiveElapsed, _, _, helapsed, h⟩ := Outcome.bind_eq_value h
  cases h
  rw [hrecorded.receives] at hreceives
  rw [hrecorded.elapsed] at helapsed
  have hstats := (RingBuffer.holds_puts hn _).stats_of _ helapsed
  refine ⟨hstats, ?_⟩
  rw [hstats.count, ((RingBuffer.holds_puts hn _).stats_of _ hreceives).count, hlength]

/-! ## Three values in a buffer of two -/

/-- A buffer of size 2 after 5, 1 and 3 holds 3 and 1. -/
theorem RingBuffer.getStats_puts_three :
    ∃ stats, ((puts 2 [5, 1, 3]).getStats durationSummand).Exact stats ∧ stats.total = 4 ∧
      stats.Of durationSummand 2 [5, 1, 3] := by
  obtain ⟨_, _, _, hof, hexact⟩ := getStats_puts durationSummand (n := 2) (by decide) [5, 1, 3]
  obtain ⟨stats, hstats, htotal⟩ := hexact (by decide)
  exact ⟨stats, hstats, htotal, hof stats false hstats⟩

end ShardusNet.Binding
