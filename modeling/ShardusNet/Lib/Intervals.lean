import Mathlib.Data.List.Nodup
import Mathlib.Algebra.BigOperators.Group.List.Basic
import Mathlib.Algebra.Order.Ring.Nat
import Mathlib.Order.Lattice
/-!
# Intervals between bounds

The half-open intervals between bounds, the last of them without an upper end, and counts of the
values that a function assigns to them.

* `exists_within`, `within_unique`: strictly increasing bounds part the values from the first bound
  on.
* `sum_countP`: each value that is assigned is counted once.
-/

namespace Intervals
variable {α β : Type*}

/-- The intervals, each with its upper end if there is one. -/
def intervals : List α → List (α × Option α)
  | [] => []
  | b :: bs => (b, bs.head?) :: intervals bs

/-- Each bound begins one interval. -/
lemma intervals_map_fst (bs : List α) : (intervals bs).map Prod.fst = bs := by
  induction bs with
  | nil => rfl
  | cons b bs ih => rw [intervals, List.map_cons, ih]

/-- An interval begins at a bound. -/
lemma fst_mem {bs : List α} {r} (hr : r ∈ intervals bs) : r.1 ∈ bs := by
  have := List.mem_map_of_mem (f := Prod.fst) hr
  rwa [intervals_map_fst] at this

/-- An interval ends at a bound, if it ends. -/
lemma snd_mem {bs : List α} {r hi} (hr : r ∈ intervals bs) (hhi : r.2 = some hi) : hi ∈ bs := by
  induction bs with
  | nil => cases hr
  | cons b bs ih =>
    rcases List.mem_cons.mp hr with rfl | hr
    · exact List.mem_cons_of_mem _ (List.mem_of_mem_head? hhi)
    · exact List.mem_cons_of_mem _ (ih hr)

section
variable [LinearOrder α]

/-- The value lies in the interval, whose end is no part of it. -/
def Within (r : α × Option α) (v : α) : Prop := r.1 ≤ v ∧ ∀ hi ∈ r.2, v < hi

/-- It can be decided. -/
instance (r : α × Option α) : DecidablePred (Within r) :=
  fun v => inferInstanceAs (Decidable (r.1 ≤ v ∧ ∀ hi ∈ r.2, v < hi))

/-- An interval of increasing bounds is not empty. -/
lemma fst_lt {bs : List α} {r hi} (hbs : bs.Pairwise (· < ·)) (hr : r ∈ intervals bs)
    (hhi : r.2 = some hi) :
    r.1 < hi := by
  induction bs with
  | nil => cases hr
  | cons b bs ih =>
    obtain ⟨hb, hbs⟩ := List.pairwise_cons.mp hbs
    rcases List.mem_cons.mp hr with rfl | hr
    · exact hb hi (List.mem_of_mem_head? hhi)
    · exact ih hbs hr

/-- The intervals of increasing bounds begin one after the other. -/
lemma intervals_pairwise {bs : List α} (hbs : bs.Pairwise (· < ·)) :
    (intervals bs).Pairwise fun r r' => r.1 < r'.1 := by
  rw [← intervals_map_fst bs, List.pairwise_map] at hbs
  exact hbs

/-- An interval is known by where it begins. -/
lemma eq_of_fst_eq {bs : List α} {r r'} (hbs : bs.Pairwise (· < ·)) (hr : r ∈ intervals bs)
    (hr' : r' ∈ intervals bs) (h : r.1 = r'.1) : r = r' := by
  have hnodup : ((intervals bs).map Prod.fst).Nodup := by
    rw [intervals_map_fst]
    exact hbs.imp ne_of_lt
  exact List.inj_on_of_nodup_map hnodup hr hr' h

/-- The first of increasing bounds is the least. -/
lemma le_of_mem {b : α} {bs b'} (hbs : (b :: bs).Pairwise (· < ·)) (hb' : b' ∈ b :: bs) :
    b ≤ b' := by
  rcases List.mem_cons.mp hb' with rfl | hmem
  · exact le_refl _
  · exact ((List.pairwise_cons.mp hbs).1 _ hmem).le

/-- The lower end is the largest bound up to a value of the interval. -/
lemma le_fst {bs : List α} {r v b'} (hbs : bs.Pairwise (· < ·)) (hr : r ∈ intervals bs)
    (hv : Within r v)
    (hb' : b' ∈ bs) (hle : b' ≤ v) : b' ≤ r.1 := by
  induction bs with
  | nil => cases hr
  | cons b bs ih =>
    obtain ⟨hb, hbs'⟩ := List.pairwise_cons.mp hbs
    rcases List.mem_cons.mp hr with rfl | hmem
    · rcases List.mem_cons.mp hb' with rfl | hb'
      · exact le_refl _
      · cases bs with
        | nil => cases hb'
        | cons b₁ bs => exact absurd (hv.2 b₁ rfl) (not_lt.mpr ((le_of_mem hbs' hb').trans hle))
    · rcases List.mem_cons.mp hb' with rfl | hb'
      · exact (hb _ (fst_mem hmem)).le
      · exact ih hbs' hmem hb'

/-- A value from the first bound on lies in an interval. -/
theorem exists_within {b : α} (bs) {v} (h : b ≤ v) : ∃ r ∈ intervals (b :: bs), Within r v := by
  induction bs generalizing b with
  | nil => exact ⟨(b, none), List.mem_cons_self, h, nofun⟩
  | cons b' bs ih =>
    by_cases hv : v < b'
    · exact ⟨(b, some b'), List.mem_cons_self, h, fun hi e => by cases e; exact hv⟩
    · obtain ⟨r, hr, hwithin⟩ := ih (not_lt.mp hv)
      exact ⟨r, List.mem_cons_of_mem _ hr, hwithin⟩

/-- A value lies in one interval at most. -/
theorem within_unique {bs : List α} {r r' v} (hbs : bs.Pairwise (· < ·)) (hr : r ∈ intervals bs)
    (hr' : r' ∈ intervals bs) (hv : Within r v) (hv' : Within r' v) : r = r' := by
  have hle := le_fst hbs hr hv (fst_mem hr') hv'.1
  have hge := le_fst hbs hr' hv' (fst_mem hr) hv.1
  exact eq_of_fst_eq hbs hr hr' (le_antisymm hge hle)

end

/-- What is unique is found. -/
lemma find?_eq_some_iff {l : List α} {p : α → Bool} {a}
    (hunique : ∀ x ∈ l, ∀ y ∈ l, p x → p y → x = y) :
    l.find? p = some a ↔ a ∈ l ∧ p a := by
  constructor
  · intro h
    exact ⟨List.mem_of_find?_eq_some h, List.find?_some h⟩
  · rintro ⟨hmem, ha⟩
    obtain ⟨x, hx⟩ := Option.isSome_iff_exists.mp (List.find?_isSome.mpr ⟨a, hmem, ha⟩)
    rw [hx, hunique x (List.mem_of_find?_eq_some hx) a hmem (List.find?_some hx) ha]

/-! ## Counts -/

/-- The number of times that an element is in a list. -/
lemma sum_indicator [DecidableEq β] (l : List β) (b : β) :
    (l.map fun b' => if some b = some b' then 1 else 0).sum = l.count b := by
  induction l with
  | nil => rfl
  | cons b' l ih =>
    rw [List.map_cons, List.sum_cons, ih, List.count_cons, add_comm, Nat.add_left_cancel_iff]
    by_cases h : b = b'
    · rw [if_pos (congrArg some h), if_pos (beq_iff_eq.mpr h.symm)]
    · rw [if_neg (fun e => h (Option.some_inj.mp e)), if_neg (fun e => h (beq_iff_eq.mp e).symm)]

/-- Values that are counted under distinct names are all counted once. -/
theorem sum_countP [DecidableEq β] {l : List β} {f : α → Option β} (hl : l.Nodup) {values : List α}
    (hf : ∀ v ∈ values, ∀ b, f v = some b → b ∈ l) :
    (l.map fun b => values.countP fun v => f v = some b).sum =
      values.countP fun v => (f v).isSome := by
  induction values with
  | nil => exact List.sum_eq_zero (by simp)
  | cons v values ih =>
    obtain ⟨hv, hf⟩ := List.forall_mem_cons.mp hf
    simp only [List.countP_cons, decide_eq_true_eq, List.sum_map_add]
    rw [ih hf, Nat.add_left_cancel_iff]
    cases hcase : f v with
    | none => exact List.sum_eq_zero (by simp)
    | some b =>
      rw [sum_indicator, hl.count, if_pos (hv b hcase)]
      rfl

/-- When one count is of some of the values of another, and as large, it is of the same values. -/
lemma of_countP_eq {p q : α → Prop} [DecidablePred p] [DecidablePred q] {values : List α}
    (hpq : ∀ v ∈ values, p v → q v)
    (h : (values.countP fun v => p v) = values.countP fun v => q v) : ∀ v ∈ values, q v → p v := by
  induction values with
  | nil => nofun
  | cons v values ih =>
    obtain ⟨hv, hpq⟩ := List.forall_mem_cons.mp hpq
    have hle : (values.countP fun v => p v) ≤ values.countP fun v => q v := by
      apply List.countP_mono_left
      simpa using hpq
    simp only [List.countP_cons, decide_eq_true_eq] at h
    by_cases hp : p v
    · rw [if_pos hp, if_pos (hv hp), Nat.add_right_cancel_iff] at h
      exact List.forall_mem_cons.mpr ⟨fun _ => hp, ih hpq h⟩
    · rw [if_neg hp] at h
      split at h
      case isTrue => omega
      case isFalse hq => exact List.forall_mem_cons.mpr ⟨fun hq' => absurd hq' hq, ih hpq h⟩

end Intervals
