import Mathlib.Data.Int.Notation
import Mathlib.Data.Nat.Notation
import Mathlib.Logic.Function.Basic
/-!
# Maps with expiry

Port of `src/util/TTLMap.ts`: entries that a timer removes. Times are milliseconds. The timers of
the map are part of it; the event loop fires any of them, and a cleared timer is gone. Keys are
names of own properties of the object behind the map, so not `__proto__`.

* `get_eq_some`, `get_map`: a get returns a value that has not expired, and drops the others.
* `set_map`, `delete_map`, `fire_map`: each other operation changes the entry of its key only.
-/

namespace ShardusNet.Node

/-- `TTLMapValue<T>`. -/
structure TTLMapValue (V : Type*) where
  value : V
  expiry : ℤ
  timeoutId : ℕ

/-- A timer that `set` started. -/
structure ExpiryTimer (V : Type*) where
  id : ℕ
  key : String
  value : V
  /-- whether `set` was given an `onExpiry` -/
  onExpiry : Bool

/-- `TTLMap<T>`, with its timers that are neither fired nor cleared. -/
structure TTLMap (V : Type*) where
  map : String → Option (TTLMapValue V)
  timers : List (ExpiryTimer V)
  nextId : ℕ

namespace TTLMap
variable {V : Type*}

/-- `new TTLMap()`. -/
def empty : TTLMap V := ⟨fun _ => none, [], 0⟩

/-- `set`. -/
def set (m : TTLMap V) (key : String) (value : V) (ttl : ℤ) (onExpiry : Bool) (now : ℤ) : TTLMap V where
  map := Function.update m.map key (some ⟨value, now + ttl, m.nextId⟩)
  timers := ⟨m.nextId, key, value, onExpiry⟩ :: m.timers
  nextId := m.nextId + 1

/-- `get`. -/
def get (m : TTLMap V) (key : String) (now : ℤ) : Option V × TTLMap V :=
  match m.map key with
  | some entry =>
    if entry.expiry > now then (some entry.value, m)
    else (none, { m with map := Function.update m.map key none })
  | none => (none, { m with map := Function.update m.map key none })

/-- `delete`. -/
def delete (m : TTLMap V) (key : String) : TTLMap V :=
  { m with
    timers := match m.map key with
      | some entry => m.timers.filter (·.id ≠ entry.timeoutId)
      | none => m.timers
    map := Function.update m.map key none }

/-- The callback of a timer: the call of `onExpiry`, if there is one, and the map without the
    key. -/
def fire (m : TTLMap V) (timer : ExpiryTimer V) : Option (String × V) × TTLMap V :=
  (if timer.onExpiry then some (timer.key, timer.value) else none,
    { m with
      timers := m.timers.filter (·.id ≠ timer.id)
      map := Function.update m.map timer.key none })

/-- What `set` does to the entries. -/
lemma set_map (m : TTLMap V) (key value ttl onExpiry now k) :
    (m.set key value ttl onExpiry now).map k =
      if k = key then some ⟨value, now + ttl, m.nextId⟩ else m.map k := by
  simp only [set, Function.update_apply]

/-- A value that is got is an entry that has not expired. -/
lemma get_eq_some {m : TTLMap V} {key now v} :
    (m.get key now).1 = some v ↔ ∃ entry, m.map key = some entry ∧ entry.expiry > now ∧
      entry.value = v := by
  unfold get
  cases m.map key with
  | none => simp
  | some entry =>
    by_cases he : entry.expiry > now
    · simp [he]
    · simp [he]

/-- A get leaves the entries of other keys, and its own or none. -/
lemma get_map (m : TTLMap V) (key now k) :
    (m.get key now).2.map k = m.map k ∨ k = key ∧ (m.get key now).2.map k = none := by
  unfold get
  by_cases hk : k = key
  · subst hk
    cases hm : m.map k with
    | none => exact .inr ⟨rfl, by simp⟩
    | some entry =>
      by_cases he : entry.expiry > now
      · exact .inl (by simp [he, hm])
      · exact .inr ⟨rfl, by simp [he]⟩
  · refine .inl ?_
    split
    case h_1 => split <;> simp [hk]
    case h_2 => simp [hk]

/-- A deletion leaves the other keys. -/
lemma delete_map (m : TTLMap V) (key k) : (m.delete key).map k = if k = key then none else m.map k := by
  simp only [delete, Function.update_apply]

/-- A timer that fires removes its own key only. -/
lemma fire_map (m : TTLMap V) (timer k) :
    (m.fire timer).2.map k = if k = timer.key then none else m.map k := by
  simp only [fire, Function.update_apply]

end TTLMap

end ShardusNet.Node
