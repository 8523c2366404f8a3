import Mathlib.Data.List.Forall2
import Mathlib.Data.List.Perm.Basic
/-!
# Lists in pieces

Lists of which each entry belongs to one of finitely many pieces, and lists that are related entry
by entry.

* `perm_flatMap_filter`: a list is its pieces, one after the other.
* `forall₂_flatMap`, `exists_of_forall₂_right`: pieces that are related, and the entry that is
  related to a given one.
-/

namespace Pieces

/-- A list is its entries with each key, key by key. -/
lemma perm_flatMap_filter {α : Type*} (f : α → ℕ) {l : List α} {n} (h : ∀ x ∈ l, f x < n) :
    l.Perm ((List.range n).flatMap fun i => l.filter (f · = i)) := by
  have hall : ∀ n, (l.filter (f · < n)).Perm ((List.range n).flatMap fun i => l.filter (f · = i)) := by
    intro n
    induction n with
    | zero =>
      rw [List.range_zero, List.flatMap_nil, List.filter_eq_nil_iff.mpr (by simp)]
    | succ n ih =>
      rw [List.range_succ, List.flatMap_append, List.flatMap_singleton]
      refine List.Perm.trans ?_ (ih.append_right _)
      have hsplit := (List.filter_append_perm (f · < n) (l.filter (f · < n + 1))).symm
      rw [List.filter_filter, List.filter_filter] at hsplit
      have hlow : l.filter (fun x => decide (f x < n) && decide (f x < n + 1)) =
          l.filter (f · < n) := by
        apply List.filter_congr
        intro x _
        by_cases hx : f x < n
        · simp [hx, Nat.lt_succ_of_lt hx]
        · simp [hx]
      have hhigh : l.filter (fun x => !decide (f x < n) && decide (f x < n + 1)) =
          l.filter (f · = n) := by
        apply List.filter_congr
        intro x _
        by_cases hx : f x = n
        · simp [hx]
        · simp [hx]
          omega
      rwa [hlow, hhigh] at hsplit
  have hperm := hall n
  rwa [List.filter_eq_self.mpr fun x hx => decide_eq_true (h x hx)] at hperm

/-- Lists that are related piece by piece. -/
lemma forall₂_flatMap {α β γ : Type*} {R : β → γ → Prop} {l : List α} {f : α → List β}
    {g : α → List γ} (h : ∀ x ∈ l, List.Forall₂ R (f x) (g x)) :
    List.Forall₂ R (l.flatMap f) (l.flatMap g) := by
  induction l with
  | nil => exact .nil
  | cons x l ih =>
    obtain ⟨hx, hl⟩ := List.forall_mem_cons.mp h
    exact List.rel_append hx (ih hl)

/-- What is related to an entry on the right. -/
lemma exists_of_forall₂_right {α β : Type*} {R : α → β → Prop} {l : List α} {u : List β}
    (h : List.Forall₂ R l u) {b} (hb : b ∈ u) : ∃ a ∈ l, R a b := by
  induction h with
  | nil => cases hb
  | @cons a b' l u hab _ ih =>
    rcases List.mem_cons.mp hb with rfl | hb
    · exact ⟨a, List.mem_cons_self, hab⟩
    · obtain ⟨a', ha', h⟩ := ih hb
      exact ⟨a', List.mem_cons_of_mem _ ha', h⟩

end Pieces
