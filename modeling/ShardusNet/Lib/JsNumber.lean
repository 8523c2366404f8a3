import Mathlib.Data.Rat.Floor
/-!
# JavaScript numbers

Numbers of JavaScript by the value they have, their order, and their conversion to an unsigned
integer, which truncates and saturates, as `as` does in Rust.

* `toUInt_eq_iff`: the numbers that are converted to one that is neither zero nor the largest.
-/

/-- A number. -/
inductive JsNumber where
  | finite (q : ℚ)
  | posInf
  | negInf
  | nan
  deriving DecidableEq

namespace JsNumber

/-- An integer. -/
def ofInt (n : ℤ) : JsNumber := .finite n

/-- What counts as true in a condition. -/
def truthy : JsNumber → Bool
  | .finite q => q ≠ 0
  | .nan => false
  | _ => true

/-- `x <= y`. -/
def le : JsNumber → JsNumber → Bool
  | .nan, _ => false
  | _, .nan => false
  | .negInf, _ => true
  | _, .posInf => true
  | .finite p, .finite q => p ≤ q
  | _, _ => false

/-- `x < y`. -/
def lt (x y : JsNumber) : Bool := x.le y && !y.le x

/-- The conversion to an unsigned integer of this many bits. -/
def toUInt (bits : ℕ) : JsNumber → ℕ
  | .finite q => min ⌊q⌋.toNat (2 ^ bits - 1)
  | .posInf => 2 ^ bits - 1
  | _ => 0

/-- Finite numbers are ordered as rationals are. -/
lemma finite_le {p q : ℚ} : (finite p).le (.finite q) = true ↔ p ≤ q := decide_eq_true_iff

/-- Finite numbers are ordered strictly as rationals are. -/
lemma finite_lt {p q : ℚ} : (finite p).lt (.finite q) = true ↔ p < q := by
  rw [lt, Bool.and_eq_true, Bool.not_eq_true', ← Bool.not_eq_true, finite_le, finite_le, not_le]
  exact ⟨fun h => h.2, fun h => ⟨h.le, h⟩⟩

/-- A finite number is below infinity. -/
lemma finite_lt_posInf {p : ℚ} : (finite p).lt .posInf = true := rfl

/-- What fits. -/
lemma toUInt_lt (bits : ℕ) (x : JsNumber) : x.toUInt bits < 2 ^ bits := by
  have hpos := Nat.two_pow_pos bits
  cases x with
  | finite q =>
    have hmin := Nat.min_le_right ⌊q⌋.toNat (2 ^ bits - 1)
    rw [toUInt]
    omega
  | posInf =>
    rw [toUInt]
    omega
  | negInf => exact hpos
  | nan => exact hpos

/-- The numbers that are converted to one that is neither zero nor the largest. -/
theorem toUInt_eq_iff {bits n : ℕ} (hn : 0 < n) (hlt : n < 2 ^ bits - 1) {x : JsNumber} :
    x.toUInt bits = n ↔ ∃ q, x = .finite q ∧ n ≤ q ∧ q < n + 1 := by
  cases x with
  | finite q =>
    have hfloor : min ⌊q⌋.toNat (2 ^ bits - 1) = n ↔ ⌊q⌋ = n := by omega
    rw [toUInt, hfloor, Int.floor_eq_iff]
    constructor
    · intro h
      exact ⟨q, rfl, by exact_mod_cast h⟩
    · rintro ⟨q', e, h⟩
      cases e
      exact_mod_cast h
  | posInf =>
    refine ⟨fun h => ?_, nofun⟩
    rw [toUInt] at h
    omega
  | negInf =>
    refine ⟨fun h => ?_, nofun⟩
    exact absurd h (Nat.ne_of_lt hn)
  | nan =>
    refine ⟨fun h => ?_, nofun⟩
    exact absurd h (Nat.ne_of_lt hn)

end JsNumber
