import Mathlib.Data.List.Perm.Basic
/-!
# Lists taken through a window

A list whose entries are taken one by one, each of them among the first `n` that are left: the orders
in which `n` workers can finish what they start in the order of the list.

* `Taken.append`, `Taken.concat`, `Taken.of_append`: more to take from, one more taken, fewer taken.
* `Taken.perm`, `taken_of_perm`: what is taken and left is the list, and through a window that is as
  long as the list it is taken in any order.
-/

namespace Window
variable {α : Type*}

/-- These can be taken from the list in this order, each among the first `n` that are left, and then
    those are left. -/
inductive Taken (n : ℕ) : List α → List α → List α → Prop
  | nil (l : List α) : Taken n l [] l
  | cons {pre : List α} {x : α} {post taken left : List α} (hwindow : pre.length < n)
    (h : Taken n (pre ++ post) taken left) : Taken n (pre ++ x :: post) (x :: taken) left

variable {n : ℕ} {l taken left : List α}

/-- What stands behind the list does not matter. -/
lemma Taken.append (h : Taken n l taken left) (more : List α) :
    Taken n (l ++ more) taken (left ++ more) := by
  induction h with
  | nil l => exact .nil _
  | cons hwindow _ ih =>
    rw [List.append_assoc] at ih
    rw [List.append_assoc, List.cons_append]
    exact .cons hwindow ih

/-- One more is taken. -/
lemma Taken.concat {pre post : List α} {x : α} (h : Taken n l taken (pre ++ x :: post))
    (hwindow : pre.length < n) : Taken n l (taken ++ [x]) (pre ++ post) := by
  generalize hleft : pre ++ x :: post = left at h
  induction h with
  | nil l =>
    subst hleft
    exact .cons hwindow (.nil _)
  | cons hwindow' _ ih => exact .cons hwindow' (ih hleft)

/-- The first of those that are taken, on the way to taking more. -/
lemma Taken.of_append {first more : List α} (h : Taken n l (first ++ more) left) :
    ∃ left', Taken n l first left' := by
  induction first generalizing l with
  | nil => exact ⟨l, .nil l⟩
  | cons x first ih =>
    cases h with
    | cons hwindow h =>
      obtain ⟨left', h'⟩ := ih h
      exact ⟨left', .cons hwindow h'⟩

/-- Where nothing was taken all is left. -/
lemma Taken.eq_of_nil (h : Taken n l [] left) : left = l := by
  cases h with
  | nil => rfl

/-- What is taken and what is left is the list. -/
lemma Taken.perm (h : Taken n l taken left) : l.Perm (taken ++ left) := by
  induction h with
  | nil l => exact .refl l
  | cons _ _ ih => exact List.perm_middle.trans (ih.cons _)

/-- Through a window that is as long as the list, anything is taken in any order. -/
lemma taken_of_perm (h : l.Perm (taken ++ left)) (hlen : l.length ≤ n) :
    ∃ left', Taken n l taken left' ∧ left'.Perm left := by
  induction taken generalizing l with
  | nil => exact ⟨l, .nil l, h⟩
  | cons x taken ih =>
    obtain ⟨pre, post, rfl⟩ := List.append_of_mem (h.symm.subset List.mem_cons_self)
    have hrest : (pre ++ post).Perm (taken ++ left) :=
      (List.perm_middle.symm.trans h).cons_inv
    rw [List.length_append, List.length_cons] at hlen
    obtain ⟨left', htaken, hleft⟩ := ih hrest (by rw [List.length_append]; omega)
    exact ⟨left', .cons (by omega) htaken, hleft⟩

end Window
