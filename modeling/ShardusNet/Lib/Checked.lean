import Mathlib.Algebra.Ring.Nat
import Mathlib.Data.Int.Notation
/-!
# Machine arithmetic of two builds

Operations on unsigned words of any width, as a build with overflow checks evaluates them (a result
that does not fit is a panic) and as one without does (it wraps). An evaluation keeps whether an
operation has wrapped, so that an exact one can be told from the others.

* `arith_exact`: an operation is exact when its value is the unbounded one.
* `exact_bind`: an evaluation is exact when all of its operations are.
-/

namespace Checked

/-- How an evaluation ends: with a value, and whether an operation has wrapped, or with a panic. -/
inductive Outcome (α : Type*) where
  | value (a : α) (wrapped : Bool)
  | panic
  deriving DecidableEq

namespace Outcome
variable {α β γ : Type*}

/-- An evaluation after another. -/
def bind (o : Outcome α) (f : α → Outcome β) : Outcome β :=
  match o with
  | .panic => .panic
  | .value a wrapped =>
    match f a with
    | .panic => .panic
    | .value b wrapped' => .value b (wrapped || wrapped')

/-- Evaluations one after the other. -/
instance : Monad Outcome where
  pure a := .value a false
  bind := bind

/-- An evaluation whose value is not used further. -/
lemma bind_value (o : Outcome α) : o.bind (.value · false) = o := by
  cases o with
  | panic => rfl
  | value a wrapped => simp only [bind, Bool.or_false]

/-- An evaluation after a value. -/
lemma value_bind (a : α) (f : α → Outcome β) : (value a false).bind f = f a := by
  cases hf : f a with
  | panic => simp only [bind, hf]
  | value b wrapped => simp only [bind, hf, Bool.false_or]

/-- Three evaluations in a row. -/
lemma bind_bind (o : Outcome α) (f : α → Outcome β) (g : β → Outcome γ) :
    (o.bind f).bind g = o.bind fun a => (f a).bind g := by
  cases o with
  | panic => rfl
  | value a wrapped =>
    cases hf : f a with
    | panic => simp only [bind, hf]
    | value b wrapped' =>
      cases hg : g b with
      | panic => simp only [bind, hf, hg]
      | value c wrapped'' => simp only [bind, hf, hg, Bool.or_assoc]

/-- The laws of a monad hold. -/
instance : LawfulMonad Outcome := .mk' Outcome bind_value value_bind bind_bind

/-- The evaluation has ended with this value, and all its operations were exact. -/
def Exact (o : Outcome α) (a : α) : Prop := o = .value a false

/-- A value is exact. -/
lemma exact_pure {a b : α} : Exact (pure a) b ↔ a = b := by
  show Outcome.value a false = .value b false ↔ a = b
  rw [Outcome.value.injEq]
  exact and_iff_left rfl

/-- An evaluation after another is exact when both are. -/
lemma exact_bind {α β : Type _} {o : Outcome α} {f : α → Outcome β} {b : β} :
    Exact (o >>= f) b ↔ ∃ a, Exact o a ∧ Exact (f a) b := by
  show bind o f = .value b false ↔ _
  cases o with
  | panic =>
    refine ⟨nofun, ?_⟩
    rintro ⟨_, h, _⟩
    cases h
  | value a wrapped =>
    cases hf : f a with
    | panic =>
      simp only [bind, hf]
      refine ⟨nofun, ?_⟩
      rintro ⟨a', h, h'⟩
      cases h
      rw [Exact, hf] at h'
      cases h'
    | value b' wrapped' =>
      simp only [bind, hf, Outcome.value.injEq, Bool.or_eq_false_iff]
      constructor
      · rintro ⟨rfl, rfl, rfl⟩
        exact ⟨a, rfl, hf⟩
      · rintro ⟨a', h, h'⟩
        cases h
        rw [Exact, hf] at h'
        cases h'
        exact ⟨rfl, rfl, rfl⟩

/-- An evaluation after another has a value when both have one. -/
lemma bind_eq_value {α β : Type _} {o : Outcome α} {f : α → Outcome β} {b : β} {wrapped : Bool}
    (h : o >>= f = .value b wrapped) :
    ∃ a wrapped₁ wrapped₂, o = .value a wrapped₁ ∧ f a = .value b wrapped₂ := by
  change bind o f = _ at h
  cases o with
  | panic => cases h
  | value a wrapped₁ =>
    cases hf : f a with
    | panic =>
      simp only [bind, hf] at h
      cases h
    | value b' wrapped₂ =>
      simp only [bind, hf] at h
      cases h
      exact ⟨a, wrapped₁, wrapped₂, rfl, hf⟩

end Outcome

section
variable {w w' : ℕ} (checks : Bool)

/-- The operation with this result in unbounded integers. -/
def arith (w : ℕ) (x : ℤ) : Outcome (BitVec w) :=
  if 0 ≤ x ∧ x < (2 ^ w : ℕ) then .value (BitVec.ofInt w x) false
  else if checks then .panic
  else .value (BitVec.ofInt w x) true

/-- `a + b`. -/
def add (a b : BitVec w) : Outcome (BitVec w) := arith checks w (a.toNat + b.toNat)

/-- `a - b`. -/
def sub (a b : BitVec w) : Outcome (BitVec w) := arith checks w (a.toNat - b.toNat)

/-- `a * b`. -/
def mul (a b : BitVec w) : Outcome (BitVec w) := arith checks w (a.toNat * b.toNat)

/-- A conversion to a word of another width, which panics in both builds where the value does not
    fit. -/
def narrow (w' : ℕ) (a : BitVec w) : Outcome (BitVec w') :=
  if a.toNat < 2 ^ w' then .value (a.setWidth w') false else .panic

variable {checks}

/-- A result that fits is the value of its word. -/
lemma toNat_ofInt_of_fits {x : ℤ} (hx : 0 ≤ x ∧ x < (2 ^ w : ℕ)) : ((BitVec.ofInt w x).toNat : ℤ) = x := by
  have hpos : ((2 ^ w : ℕ) : ℤ) ≠ 0 := Int.natCast_ne_zero.mpr (Nat.ne_of_gt (Nat.two_pow_pos w))
  rw [BitVec.toNat_ofInt, Int.toNat_of_nonneg (Int.emod_nonneg x hpos)]
  exact Int.emod_eq_of_lt hx.1 hx.2

/-- An operation is exact when its value is the unbounded one. -/
theorem arith_exact {x : ℤ} {a : BitVec w} : (arith checks w x).Exact a ↔ (a.toNat : ℤ) = x := by
  unfold arith
  split
  case isTrue hx =>
    constructor
    · intro h
      rw [← (Outcome.value.inj h).1]
      exact toNat_ofInt_of_fits hx
    · intro h
      have e : BitVec.ofInt w x = a := by
        apply BitVec.eq_of_toNat_eq
        apply Int.ofNat.inj
        exact (toNat_ofInt_of_fits hx).trans h.symm
      rw [Outcome.Exact, e]
  case isFalse hx =>
    constructor
    · intro h
      split at h
      case isTrue => cases h
      case isFalse => cases (Outcome.value.inj h).2
    · rintro rfl
      exact absurd ⟨Int.natCast_nonneg _, Int.ofNat_lt.mpr a.isLt⟩ hx

/-- A sum is exact when it is that of the numbers. -/
lemma add_exact {a b c : BitVec w} : (add checks a b).Exact c ↔ c.toNat = a.toNat + b.toNat := by
  rw [add, arith_exact, ← Int.natCast_add, Int.natCast_inj]

/-- A difference is exact when it is that of the numbers. -/
lemma sub_exact {a b c : BitVec w} : (sub checks a b).Exact c ↔ c.toNat + b.toNat = a.toNat := by
  rw [sub, arith_exact]
  omega

/-- A product is exact when it is that of the numbers. -/
lemma mul_exact {a b c : BitVec w} : (mul checks a b).Exact c ↔ c.toNat = a.toNat * b.toNat := by
  rw [mul, arith_exact, ← Int.natCast_mul, Int.natCast_inj]

/-- A sum that fits is exact. -/
lemma foldlM_add_exact (checks : Bool) {α : Type*} {f : α → BitVec w} {l : List α} (acc : BitVec w)
    (hfits : acc.toNat + (l.map fun a => (f a).toNat).sum < 2 ^ w) :
    ∃ total, (l.foldlM (fun acc a => add checks acc (f a)) acc).Exact total ∧
      total.toNat = acc.toNat + (l.map fun a => (f a).toNat).sum := by
  induction l generalizing acc with
  | nil => exact ⟨acc, rfl, rfl⟩
  | cons a l ih =>
    rw [List.map_cons, List.sum_cons] at hfits ⊢
    have hacc : (acc + f a).toNat = acc.toNat + (f a).toNat := by
      rw [BitVec.toNat_add, Nat.mod_eq_of_lt (by omega)]
    obtain ⟨total, htotal, hval⟩ := ih (acc + f a) (by omega)
    refine ⟨total, ?_, by omega⟩
    rw [List.foldlM_cons]
    exact Outcome.exact_bind.mpr ⟨acc + f a, add_exact.mpr hacc, htotal⟩

/-- When a conversion is exact. -/
lemma narrow_exact {a : BitVec w} {b : BitVec w'} : (narrow w' a).Exact b ↔ b.toNat = a.toNat := by
  unfold narrow
  split
  case isTrue h =>
    have hval : (a.setWidth w').toNat = a.toNat := by
      rw [BitVec.toNat_setWidth, Nat.mod_eq_of_lt h]
    constructor
    · intro he
      rw [← (Outcome.value.inj he).1, hval]
    · intro he
      have e : a.setWidth w' = b := BitVec.eq_of_toNat_eq (hval.trans he.symm)
      rw [Outcome.Exact, e]
  case isFalse h =>
    refine ⟨nofun, ?_⟩
    intro he
    exact absurd (he ▸ b.isLt) h

end

end Checked
