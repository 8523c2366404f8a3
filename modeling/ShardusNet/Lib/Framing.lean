import ShardusNet.Lib.ByteCodec
/-!
# Framed byte streams

A stream of frames, each a body behind its four-byte big-endian length, and what a reader that stops
at the first incomplete frame recovers from it.

* `frame` writes one frame, `next` reads one, `frames` reads all that are complete.
* `frames_frame_append`: a frame in front is the first frame read.
* `frames_take`: a cut stream yields exactly the frames wholly before the cut (`wholeCount`).
* `frames_take_append`: a piece of a frame behind whole ones adds nothing.
-/

namespace Framing
open ByteCodec

/-- A body behind its four-byte big-endian length. -/
def frame (body : Bytes) : Bytes := be 4 body.length ++ body

/-- Takes one whole frame from the front of a stream. -/
def next (s : Bytes) : Option (Bytes × Bytes) := do
  let (n, s) ← readBe 4 s
  readExact n s

/-- The length takes four bytes. -/
@[simp] lemma length_frame (b) : (frame b).length = b.length + 4 := by
  simp [frame, Nat.add_comm]

/-- `next` succeeds exactly on streams with a whole frame in front. -/
lemma next_eq_some {s b r} : next s = some (b, r) ↔ b.length < 2 ^ 32 ∧ s = frame b ++ r := by
  simp only [next, Option.bind_eq_bind, Option.bind_eq_some_iff, Prod.exists, readBe_eq_some,
    readExact_eq_some, frame, List.append_assoc]
  constructor
  · rintro ⟨n, c, ⟨hn, rfl⟩, rfl, rfl⟩
    exact ⟨hn, rfl⟩
  · rintro ⟨hb, rfl⟩
    exact ⟨b.length, b ++ r, ⟨hb, rfl⟩, rfl, rfl⟩

/-- What `next` leaves is shorter than what it was given. -/
lemma length_of_next {s b r} (h : next s = some (b, r)) : r.length < s.length := by
  obtain ⟨_, rfl⟩ := next_eq_some.mp h
  simp only [List.length_append, length_frame]
  omega

/-- The bodies of the whole frames of a stream, up to the first incomplete one. -/
def frames (s : Bytes) : List Bytes :=
  match _h : next s with
  | none => []
  | some (b, r) => b :: frames r
termination_by s.length
decreasing_by exact length_of_next ‹_›

/-- A stream with no whole frame in front has no frames. -/
lemma frames_of_next_none {s} (h : next s = none) : frames s = [] := by
  rw [frames]
  split
  case h_1 => rfl
  case h_2 b r h' => rw [h] at h'; cases h'

/-- A stream with a whole frame in front. -/
lemma frames_of_next_some {s b r} (h : next s = some (b, r)) : frames s = b :: frames r := by
  rw [frames]
  split
  case h_1 h' => rw [h] at h'; cases h'
  case h_2 b' r' h' =>
    rw [h] at h'
    cases h'
    rfl

/-- A frame in front is the first frame read. -/
lemma frames_frame_append {b s} (hb : b.length < 2 ^ 32) : frames (frame b ++ s) = b :: frames s :=
  frames_of_next_some (next_eq_some.mpr ⟨hb, rfl⟩)

/-- A stream shorter than its first frame has no frames. -/
lemma frames_of_cut {s b} (hb : b.length < 2 ^ 32) (hs : s <+: frame b) (hl : s.length < (frame b).length) :
    frames s = [] := by
  apply frames_of_next_none
  by_contra hne
  obtain ⟨⟨b', r⟩, h⟩ := Option.ne_none_iff_exists'.mp hne
  obtain ⟨hb', rfl⟩ := next_eq_some.mp h
  obtain ⟨t, e⟩ := hs
  have h1 : next (frame b) = some (b', r ++ t) :=
    next_eq_some.mpr ⟨hb', by rw [← e, List.append_assoc]⟩
  have h2 : next (frame b) = some (b, []) := next_eq_some.mpr ⟨hb, (List.append_nil _).symm⟩
  rw [h2] at h1
  obtain ⟨rfl, hr⟩ := Prod.mk.inj (Option.some.inj h1)
  rw [List.append_eq_nil_iff.mp hr.symm |>.1, List.append_nil] at hl
  exact absurd hl (lt_irrefl _)

/-- The number of leading frames that lie wholly within the first `k` bytes. -/
def wholeCount : ℕ → List Bytes → ℕ
  | _, [] => 0
  | k, b :: bs => if (frame b).length ≤ k then wholeCount (k - (frame b).length) bs + 1 else 0

/-- `wholeCount` counts the frames whose last byte is among the first `k`. -/
lemma le_wholeCount {n k bs} :
    n ≤ wholeCount k bs ↔ n ≤ bs.length ∧ ((bs.take n).map frame).flatten.length ≤ k := by
  induction bs generalizing n k with
  | nil =>
    simp only [wholeCount, List.length_nil, List.take_nil]
    constructor
    · intro h; exact ⟨h, by simp⟩
    · exact fun h => h.1
  | cons b bs ih =>
    cases n with
    | zero => simp
    | succ n =>
      simp only [wholeCount, List.take_succ_cons, List.map_cons, List.flatten_cons,
        List.length_append, List.length_cons]
      split
      case isTrue hb =>
        rw [Nat.add_le_add_iff_right, ih]
        omega
      case isFalse hb => omega

/-- All frames lie within the whole stream. -/
lemma wholeCount_flatten (bs) : wholeCount (bs.map frame).flatten.length bs = bs.length := by
  apply le_antisymm
  · exact (le_wholeCount.mp le_rfl).1
  · exact le_wholeCount.mpr ⟨le_rfl, by rw [List.take_length]⟩

/-- A cut stream yields exactly the frames wholly before the cut. -/
theorem frames_take {bs : List Bytes} (hbs : ∀ b ∈ bs, b.length < 2 ^ 32) (k) :
    frames ((bs.map frame).flatten.take k) = bs.take (wholeCount k bs) := by
  induction bs generalizing k with
  | nil => simpa [wholeCount] using frames_of_next_none (s := []) rfl
  | cons b bs ih =>
    obtain ⟨hb, hbs⟩ := List.forall_mem_cons.mp hbs
    rw [List.map_cons, List.flatten_cons, wholeCount]
    split
    case isTrue hk =>
      rw [List.take_append, List.take_of_length_le hk, frames_frame_append hb, ih hbs,
        List.take_succ_cons]
    case isFalse hk =>
      have hk' : k ≤ (frame b).length := by omega
      rw [List.take_append_of_le_length hk', List.take_zero]
      apply frames_of_cut hb (List.take_prefix k _)
      rw [List.length_take]
      omega

/-- A frame that does not lie within the first `k` bytes is not counted. -/
lemma wholeCount_concat {k bs b} (hk : k < ((bs ++ [b]).map frame).flatten.length) :
    wholeCount k (bs ++ [b]) = wholeCount k bs := by
  apply eq_of_forall_le_iff
  intro n
  rw [le_wholeCount, le_wholeCount, List.length_append, List.length_singleton]
  constructor
  · rintro ⟨hn, hlen⟩
    have hle : n ≤ bs.length := by
      by_contra hgt
      rw [List.take_of_length_le (by simp; omega)] at hlen
      exact absurd hk (Nat.not_lt_of_le hlen)
    rw [List.take_append_of_le_length hle] at hlen
    exact ⟨hle, hlen⟩
  · rintro ⟨hn, hlen⟩
    rw [List.take_append_of_le_length hn]
    exact ⟨by omega, hlen⟩

/-- A piece of a frame behind whole frames adds nothing, wherever the stream is cut. -/
theorem frames_take_append {bs : List Bytes} {b rest : Bytes} (hbs : ∀ x ∈ bs, x.length < 2 ^ 32)
    (hb : b.length < 2 ^ 32) (hrest : rest <+: frame b) (hne : rest ≠ frame b) (k) :
    frames (((bs.map frame).flatten ++ rest).take k) = bs.take (wholeCount k bs) := by
  obtain ⟨more, e⟩ := hrest
  have hmore : more ≠ [] := by
    rintro rfl
    exact hne (by rw [← e, List.append_nil])
  have hlt : 0 < more.length := List.length_pos_of_ne_nil hmore
  have hall : ((bs ++ [b]).map frame).flatten = (bs.map frame).flatten ++ rest ++ more := by
    simp [← e]
  have hcut : ((bs.map frame).flatten ++ rest).take k =
      ((bs ++ [b]).map frame).flatten.take (min k ((bs.map frame).flatten ++ rest).length) := by
    rw [hall, List.take_append_of_le_length (Nat.min_le_right _ _), ← List.take_eq_take_min]
  have hmin : min k ((bs.map frame).flatten ++ rest).length < ((bs ++ [b]).map frame).flatten.length := by
    simp only [hall, List.length_append]
    omega
  have hbs' : ∀ x ∈ bs ++ [b], x.length < 2 ^ 32 := by
    intro x hx
    rcases List.mem_append.mp hx with hx | hx
    · exact hbs x hx
    · rw [List.mem_singleton.mp hx]
      exact hb
  rw [hcut, frames_take hbs', wholeCount_concat hmin]
  have hle : wholeCount (min k ((bs.map frame).flatten ++ rest).length) bs ≤ bs.length :=
    (le_wholeCount.mp le_rfl).1
  rw [List.take_append_of_le_length hle]
  -- what lies within the whole frames is counted the same way
  congr 1
  apply eq_of_forall_le_iff
  intro n
  rw [le_wholeCount, le_wholeCount]
  refine and_congr_right fun hn => ?_
  have hsub : ((bs.take n).map frame).flatten.length ≤ (bs.map frame).flatten.length := by
    rw [← List.take_append_drop n bs, List.map_append, List.flatten_append, List.length_append,
      List.take_append_drop]
    exact Nat.le_add_right _ _
  rw [List.length_append]
  omega

end Framing
