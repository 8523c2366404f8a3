import Mathlib.Data.List.Nodup
/-!
# Entries by key

Maps that keep their entries in the order in which their keys were added, as the maps and the
objects of JavaScript do: a key that is set again keeps its place.

* `set_map`: an entry is set in its place.
* `setAll_of_nodup`: new keys are added at the end.
-/

namespace Entries
variable {κ α : Type*} [DecidableEq κ]

/-- The value of a key. -/
def get (key : κ) (es : List (κ × α)) : Option α := (es.find? fun e => e.1 = key).map Prod.snd

/-- The entries with this value for a key. -/
def set (key : κ) (value : α) : List (κ × α) → List (κ × α)
  | [] => [(key, value)]
  | (k, v) :: es => if k = key then (k, value) :: es else (k, v) :: set key value es

/-- The entries after others are set in order. -/
def setAll (es new : List (κ × α)) : List (κ × α) := new.foldl (fun es e => set e.1 e.2 es) es

/-- A new key comes last. -/
lemma set_of_not_mem {key value} {es : List (κ × α)} (h : key ∉ es.map Prod.fst) :
    set key value es = es ++ [(key, value)] := by
  induction es with
  | nil => rfl
  | cons e es ih =>
    rw [List.map_cons, List.mem_cons, not_or] at h
    rw [set, if_neg (Ne.symm h.1), ih h.2]
    rfl

/-- A key that is there keeps its place. -/
theorem set_map {keys : List κ} {f : κ → α} {key value} (hkeys : keys.Nodup) (h : key ∈ keys) :
    set key value (keys.map fun k => (k, f k)) =
      keys.map fun k => (k, if k = key then value else f k) := by
  induction keys with
  | nil => cases h
  | cons k keys ih =>
    obtain ⟨hk, hkeys⟩ := List.nodup_cons.mp hkeys
    rw [List.map_cons, List.map_cons, set]
    by_cases e : k = key
    · rw [if_pos e, if_pos e, List.cons_inj_right]
      refine List.map_congr_left fun k' hk' => ?_
      have hne : k' ≠ key := fun e' => hk (by rw [e, ← e']; exact hk')
      rw [if_neg hne]
    · rw [if_neg e, if_neg e, ih hkeys ((List.mem_cons.mp h).resolve_left (Ne.symm e))]

/-- New keys come last, in their order. -/
theorem setAll_of_nodup (es : List (κ × α)) {new : List (κ × α)}
    (h : (es.map Prod.fst ++ new.map Prod.fst).Nodup) :
    setAll es new = es ++ new := by
  induction new generalizing es with
  | nil => exact (List.append_nil _).symm
  | cons e new ih =>
    rw [List.map_cons, List.append_cons] at h
    have hnotin : e.1 ∉ es.map Prod.fst := by
      have := (List.nodup_append.mp (List.nodup_append.mp h).1).2.2
      intro hmem
      exact this _ hmem _ List.mem_cons_self rfl
    have hrest := ih (es ++ [e]) (by rwa [List.map_append])
    rw [setAll, List.foldl_cons, set_of_not_mem hnotin]
    rw [setAll, List.append_assoc] at hrest
    exact hrest

/-- The first entry answers for its own key only. -/
lemma get_cons (key k : κ) (value : α) (es : List (κ × α)) :
    get key ((k, value) :: es) = if k = key then some value else get key es := by
  by_cases h : k = key
  · rw [get, List.find?_cons_of_pos (by exact decide_eq_true h), if_pos h]
    rfl
  · rw [get, List.find?_cons_of_neg (by exact fun e => h (of_decide_eq_true e)), if_neg h]
    rfl

/-- A key that is not there has no value. -/
lemma get_eq_none {key} {es : List (κ × α)} (h : key ∉ es.map Prod.fst) : get key es = none := by
  rw [get, Option.map_eq_none_iff, List.find?_eq_none]
  intro e he hkey
  exact h (of_decide_eq_true hkey ▸ List.mem_map_of_mem he)

/-- A function on the values goes through. -/
lemma get_map {β : Type*} (f : α → β) (key : κ) (es : List (κ × α)) :
    get key (es.map fun e => (e.1, f e.2)) = (get key es).map f := by
  rw [get, get, List.find?_map, Option.map_map, Option.map_map]
  rfl

/-- A value that is found is there. -/
lemma mem_of_get {key value} {es : List (κ × α)} (h : get key es = some value) :
    (key, value) ∈ es := by
  obtain ⟨e, he, rfl⟩ := Option.map_eq_some_iff.mp h
  have hkey : e.1 = key := by simpa using List.find?_some he
  exact hkey ▸ List.mem_of_find?_eq_some he

end Entries
