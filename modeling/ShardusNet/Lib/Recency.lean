import ShardusNet.Lib.Runs
import Mathlib.Data.Finset.Card
import Mathlib.Data.List.Nodup
/-!
# Recency lists

A cache of bounded size that makes room by dropping the entry that was used longest ago, as the list
of its entries with the one that was used last in front. Keys and values are of any type.

* `request`, `without`: the two operations, and `Step`, a call of one of them.
* `live`: the keys that were requested and not removed since. `Kept`: too few of them to drop a key.
* `lookup_run`: a key that was requested is found as long as it is kept, and not after.
* `lookup_request_of_room`: where all live keys have room, the cache is a map.
-/

namespace Recency
open Runs

variable {α β : Type*}

/-- The keys, with the one that was used last in front. -/
def keys (l : List (α × β)) : List α := l.map Prod.fst

/-- The key of the first entry is the first. -/
@[simp] lemma keys_cons (e : α × β) (l) : keys (e :: l) = e.1 :: keys l := rfl

/-- The keys of two lists, one after the other. -/
@[simp] lemma keys_append (l l' : List (α × β)) : keys (l ++ l') = keys l ++ keys l' := List.map_append

variable [DecidableEq α]

/-- The value of a key. -/
def lookup (l : List (α × β)) (a : α) : Option β := (l.find? (·.1 = a)).map Prod.snd

/-- The entries of the other keys. -/
def without (l : List (α × β)) (a : α) : List (α × β) := l.filter (·.1 ≠ a)

/-- An entry comes to the front; the last ones that have no room are dropped. -/
def put (capacity : ℕ) (l : List (α × β)) (a : α) (value : β) : List (α × β) :=
  ((a, value) :: without l a).take capacity

/-- A key is requested: its value, or `new` if it has none, comes to the front. -/
def request (capacity : ℕ) (l : List (α × β)) (a : α) (new : β) : β × List (α × β) :=
  match lookup l a with
  | some value => (value, (a, value) :: without l a)
  | none => (new, put capacity l a new)

/-- A call. -/
inductive Call (α : Type*) where
  | request (a : α)
  | remove (a : α)
  deriving DecidableEq

/-- What a call does to the entries; a request may come with any new value. -/
inductive Step (capacity : ℕ) : List (α × β) → Call α → List (α × β) → Prop
  | request {l a} (new) : Step capacity l (.request a) (request capacity l a new).2
  | remove {l a} : Step capacity l (.remove a) (without l a)

/-- The live keys after a call. -/
def Call.live (keys : Finset α) : Call α → Finset α
  | .request a => insert a keys
  | .remove a => keys.erase a

/-- The keys that were requested and not removed since. -/
def live (calls : List (Call α)) : Finset α := calls.foldl Call.live ∅

/-- The keys are distinct and there is room for the entries. -/
structure Sound (capacity : ℕ) (l : List (α × β)) : Prop where
  nodup : (keys l).Nodup
  length_le : l.length ≤ capacity

/-- After a request of `a` and the calls that followed it: `a` was not removed, and at no moment as
    many as `capacity` others were live. -/
def Kept (capacity : ℕ) (a : α) (calls : List (Call α)) : Prop :=
  .remove a ∉ calls ∧ ∀ p, p <+: calls → ((live p).erase a).card < capacity

/-! ## Live keys -/

/-- One call more acts on the keys that live. -/
lemma live_concat (calls : List (Call α)) (call) : live (calls ++ [call]) = call.live (live calls) := by
  rw [live, live, List.foldl_append]
  rfl

/-- What one call more asks for. -/
lemma kept_concat {capacity a} {calls : List (Call α)} {call} :
    Kept capacity a (calls ++ [call]) ↔
      Kept capacity a calls ∧ call ≠ .remove a ∧ ((call.live (live calls)).erase a).card < capacity := by
  constructor
  · rintro ⟨hremove, hlive⟩
    refine ⟨⟨?_, ?_⟩, ?_, ?_⟩
    · exact fun h => hremove (List.mem_append_left _ h)
    · exact fun p hp => hlive p (hp.trans (List.prefix_append _ _))
    · rintro rfl
      exact hremove (List.mem_append_right _ (List.mem_singleton_self _))
    · rw [← live_concat]
      exact hlive _ (List.prefix_refl _)
  · rintro ⟨⟨hremove, hlive⟩, hne, hcard⟩
    refine ⟨?_, ?_⟩
    · rw [List.mem_append, List.mem_singleton]
      rintro (h | h)
      · exact hremove h
      · exact hne h.symm
    · intro p hp
      rcases List.prefix_concat_iff.mp hp with rfl | hp
      · rw [live_concat]
        exact hcard
      · exact hlive p hp

/-! ## Entries -/

section
variable {capacity : ℕ} {l : List (α × β)} {a b : α}

/-- A key is removed from both parts. -/
@[simp] lemma without_append (l' : List (α × β)) :
    without (l ++ l') a = without l a ++ without l' a := List.filter_append ..

/-- The keys of the other entries. -/
lemma mem_keys_without : b ∈ keys (without l a) ↔ b ∈ keys l ∧ b ≠ a := by
  simp only [keys, without, List.mem_map, List.mem_filter, decide_eq_true_eq]
  constructor
  · rintro ⟨e, ⟨he, hne⟩, rfl⟩
    exact ⟨⟨e, he, rfl⟩, hne⟩
  · rintro ⟨⟨e, he, rfl⟩, hne⟩
    exact ⟨e, ⟨he, hne⟩, rfl⟩

/-- Where a key has no entry nothing is left out. -/
lemma without_of_not_mem (h : a ∉ keys l) : without l a = l := by
  rw [without, List.filter_eq_self]
  intro e he
  have hne : e.1 ≠ a := fun hea => h (hea ▸ List.mem_map_of_mem he)
  exact decide_eq_true hne

/-- Removing a key keeps the keys distinct. -/
lemma nodup_without (h : (keys l).Nodup) : (keys (without l a)).Nodup :=
  h.sublist (List.filter_sublist.map _)

/-- A key has a value when it has an entry. -/
lemma lookup_eq_none : lookup l a = none ↔ a ∉ keys l := by
  rw [lookup, Option.map_eq_none_iff, List.find?_eq_none, keys, List.mem_map]
  constructor
  · rintro h ⟨e, he, rfl⟩
    exact h e he (decide_eq_true rfl)
  · intro h e he hea
    exact h ⟨e, he, of_decide_eq_true hea⟩

/-- The first entry has its value. -/
lemma lookup_cons_self (value : β) : lookup ((a, value) :: l) a = some value := by
  rw [lookup, List.find?_cons_of_pos (by simp)]
  rfl

/-- The first entry is of no concern to other keys. -/
lemma lookup_cons_of_ne (h : b ≠ a) (value : β) : lookup ((a, value) :: l) b = lookup l b := by
  rw [lookup, List.find?_cons_of_neg (by simpa using h.symm), lookup]

/-- The value of a key behind entries of other keys. -/
lemma lookup_append (f : List (α × β)) (h : a ∉ keys f) : lookup (f ++ l) a = lookup l a := by
  have hnone : f.find? (·.1 = a) = none := by
    rw [← Option.map_eq_none_iff, ← lookup, lookup_eq_none]
    exact h
  rw [lookup, List.find?_append, hnone, Option.none_or, lookup]

/-- The value of a key when the entries of another are left out. -/
lemma lookup_without : lookup (without l a) b = if b = a then none else lookup l b := by
  induction l with
  | nil => simp [without, lookup]
  | cons e l ih =>
    rw [lookup, without] at ih ⊢
    by_cases ha : e.1 = a
    · rw [List.filter_cons_of_neg (by simpa using ha), ih]
      split
      case isTrue => rfl
      case isFalse hb => rw [lookup, lookup, List.find?_cons_of_neg (by simpa [ha] using Ne.symm hb)]
    · rw [List.filter_cons_of_pos (by simpa using ha)]
      by_cases hb : e.1 = b
      · rw [List.find?_cons_of_pos (by simpa using hb), lookup, List.find?_cons_of_pos (by simpa using hb),
          if_neg (hb ▸ ha)]
      · rw [List.find?_cons_of_neg (by simpa using hb), ih, lookup, lookup,
          List.find?_cons_of_neg (by simpa using hb)]

/-- The value of a key when entries at the end are dropped. -/
lemma lookup_take (n : ℕ) (l : List (α × β)) (a : α) :
    lookup (l.take n) a = lookup l a ∨ lookup (l.take n) a = none := by
  cases hl : lookup (l.take n) a with
  | none => exact .inr rfl
  | some value =>
    obtain ⟨e, he, rfl⟩ := Option.map_eq_some_iff.mp hl
    rw [lookup, (List.take_prefix n l).find?_eq_some he]
    exact .inl rfl

/-- Leaving out the entry of a key makes room for it. -/
lemma length_without (hn : (keys l).Nodup) (h : a ∈ keys l) : (without l a).length + 1 = l.length := by
  induction l with
  | nil => cases h
  | cons e l ih =>
    rw [keys_cons, List.nodup_cons] at hn
    by_cases ha : e.1 = a
    · rw [without, List.filter_cons_of_neg (by simpa using ha)]
      have hl := without_of_not_mem (ha ▸ hn.1)
      rw [without] at hl
      rw [hl, List.length_cons]
    · rw [without, List.filter_cons_of_pos (by simpa using ha)]
      have hmem : a ∈ keys l := by
        rw [keys_cons] at h
        exact (List.mem_cons.mp h).resolve_left (Ne.symm ha)
      have hl := ih hn.2 hmem
      rw [without] at hl
      rw [List.length_cons, List.length_cons, hl]

/-- A request puts an entry of the key in front, and drops what has no room. -/
lemma request_eq (h : Sound capacity l) (a : α) (new : β) :
    ∃ value, request capacity l a new = (value, put capacity l a value) ∧
      value = (lookup l a).getD new := by
  cases hl : lookup l a with
  | none => exact ⟨new, by rw [request, hl], rfl⟩
  | some value =>
    refine ⟨value, ?_, rfl⟩
    have hmem : a ∈ keys l := by
      by_contra hnot
      rw [lookup_eq_none.mpr hnot] at hl
      cases hl
    have hlength : ((a, value) :: without l a).length ≤ capacity := by
      rw [List.length_cons, length_without h.nodup hmem]
      exact h.length_le
    have hput : put capacity l a value = (a, value) :: without l a := List.take_of_length_le hlength
    rw [request, hl, hput]

/-- A request keeps the keys distinct and has room. -/
lemma sound_put (h : Sound capacity l) (a : α) (value : β) : Sound capacity (put capacity l a value) := by
  refine ⟨?_, ?_⟩
  · have hn : (keys ((a, value) :: without l a)).Nodup := by
      rw [keys_cons, List.nodup_cons]
      exact ⟨fun hmem => (mem_keys_without.mp hmem).2 rfl, nodup_without h.nodup⟩
    exact hn.sublist ((List.take_sublist _ _).map _)
  · rw [put, List.length_take]
    exact Nat.min_le_left _ _

/-- Removing a key keeps a list sound. -/
lemma sound_without (h : Sound capacity l) (a : α) : Sound capacity (without l a) :=
  ⟨nodup_without h.nodup, (List.length_filter_le _ _).trans h.length_le⟩

/-- Every call keeps the keys distinct and has room. -/
lemma sound_step {l' : List (α × β)} {call} (h : Sound capacity l) (hstep : Step capacity l call l') :
    Sound capacity l' := by
  cases hstep with
  | @request a new =>
    obtain ⟨value, e, _⟩ := request_eq h a new
    rw [e]
    exact sound_put h a value
  | @remove a => exact sound_without h a

end

/-! ## How long a key is kept -/

section
variable {capacity : ℕ} {a : α} {value : β}

/-- The entry of a key, behind the entries of the keys that are live since it came to the front. -/
def Behind (calls : List (Call α)) (a : α) (value : β) (l : List (α × β)) : Prop :=
  ∃ front rest, l = front ++ (a, value) :: rest ∧ (keys front).toFinset = (live calls).erase a

/-- The number of entries in front of a key is that of the live keys. -/
lemma card_front {front rest : List (α × β)} {s : Finset α} (h : (keys (front ++ (a, value) :: rest)).Nodup)
    (e : (keys front).toFinset = s) : front.length = s.card ∧ a ∉ keys front := by
  rw [keys_append, keys_cons, List.nodup_append] at h
  refine ⟨?_, ?_⟩
  · rw [← e, List.toFinset_card_of_nodup h.1, keys, List.length_map]
  · intro hmem
    exact h.2.2 a hmem a List.mem_cons_self rfl

/-- A request of another key: it comes to the front, and the entry stays as long as there is room
    for the keys in front of it. -/
lemma behind_put {calls : List (Call α)} {l : List (α × β)} {b : α} (h : Sound capacity l)
    (hl : Behind calls a value l) (hb : b ≠ a) (w : β) :
    if ((Call.live (live calls) (.request b)).erase a).card < capacity then
      Behind (calls ++ [.request b]) a value (put capacity l b w)
    else a ∉ keys (put capacity l b w) := by
  obtain ⟨front, rest, rfl, e⟩ := hl
  have hfront : (keys ((b, w) :: without front b)).toFinset =
      (live (calls ++ [.request b])).erase a := by
    ext x
    rw [live_concat]
    simp only [keys_cons, List.mem_toFinset, List.mem_cons, mem_keys_without, Call.live, Finset.mem_erase,
      Finset.mem_insert]
    have hx : x ∈ keys front ↔ x ∈ (live calls).erase a := by rw [← e, List.mem_toFinset]
    rw [hx, Finset.mem_erase]
    constructor
    · rintro (rfl | ⟨⟨hxa, hlive⟩, _⟩)
      · exact ⟨hb, .inl rfl⟩
      · exact ⟨hxa, .inr hlive⟩
    · rintro ⟨hxa, rfl | hlive⟩
      · exact .inl rfl
      · by_cases hxb : x = b
        · exact .inl hxb
        · exact .inr ⟨⟨hxa, hlive⟩, hxb⟩
  have hlist : (b, w) :: without (front ++ (a, value) :: rest) b =
      ((b, w) :: without front b) ++ (a, value) :: without rest b := by
    rw [without_append, List.cons_append]
    have hcons : without ((a, value) :: rest) b = (a, value) :: without rest b :=
      List.filter_cons_of_pos (by simpa using hb.symm)
    rw [hcons]
  have hnodup : (keys (((b, w) :: without front b) ++ (a, value) :: without rest b)).Nodup := by
    rw [← hlist, keys_cons, List.nodup_cons]
    exact ⟨fun hmem => (mem_keys_without.mp hmem).2 rfl, nodup_without h.nodup⟩
  obtain ⟨hlength, hnot⟩ := card_front hnodup hfront
  rw [live_concat] at hlength
  rw [put, hlist]
  split
  case isTrue hroom =>
    obtain ⟨k, hk⟩ := Nat.exists_eq_add_of_lt hroom
    refine ⟨(b, w) :: without front b, (without rest b).take k, ?_, hfront⟩
    rw [List.take_append, hlength, List.take_of_length_le (by omega)]
    have hrest : capacity - ((Call.live (live calls) (.request b)).erase a).card = k + 1 := by omega
    rw [hrest, List.take_succ_cons]
  case isFalse hfull =>
    rw [List.take_append_of_le_length (by omega)]
    intro hmem
    exact hnot (((List.take_sublist _ _).map _).subset hmem)

/-- A removal of another key leaves the entry where it is. -/
lemma behind_without {calls : List (Call α)} {l : List (α × β)} {b : α}
    (hl : Behind calls a value l) (hb : b ≠ a) :
    Behind (calls ++ [.remove b]) a value (without l b) := by
  obtain ⟨front, rest, rfl, e⟩ := hl
  refine ⟨without front b, without rest b, ?_, ?_⟩
  · rw [without_append]
    have hcons : without ((a, value) :: rest) b = (a, value) :: without rest b :=
      List.filter_cons_of_pos (by simpa using hb.symm)
    rw [hcons]
  · ext x
    have hx : x ∈ keys front ↔ x ∈ (live calls).erase a := by rw [← e, List.mem_toFinset]
    rw [live_concat, List.mem_toFinset, mem_keys_without, hx]
    simp only [Call.live, Finset.mem_erase]
    exact and_right_comm.trans and_assoc

/-- After a request of a key and calls that do not request it, its entry is behind those of the keys
    that are live since if it is kept, and gone if not. -/
lemma behind_run {calls : List (Call α)} {l l' : List (α × β)} (hsound : Sound capacity ((a, value) :: l))
    (r : Run (Step capacity) ((a, value) :: l) calls l') (hcalls : .request a ∉ calls) :
    Sound capacity l' ∧
      ((Kept capacity a calls ∧ Behind calls a value l') ∨ (¬ Kept capacity a calls ∧ a ∉ keys l')) := by
  refine r.invariant_along (I := fun calls l' => .request a ∉ calls → Sound capacity l' ∧
    ((Kept capacity a calls ∧ Behind calls a value l') ∨ (¬ Kept capacity a calls ∧ a ∉ keys l')))
    ?_ ?_ hcalls
  · intro _
    refine ⟨hsound, .inl ⟨⟨List.not_mem_nil, ?_⟩, [], l, rfl, by simp [live, keys]⟩⟩
    intro p hp
    rw [List.prefix_nil.mp hp]
    have hpos := hsound.length_le
    rw [List.length_cons] at hpos
    simp only [live, List.foldl_nil, Finset.erase_empty, Finset.card_empty]
    omega
  · intro calls l' call l'' ih hstep hcalls
    rw [List.mem_append, List.mem_singleton, not_or] at hcalls
    obtain ⟨hs, hcases⟩ := ih hcalls.1
    refine ⟨sound_step hs hstep, ?_⟩
    rw [kept_concat]
    cases hstep with
    | @request b new =>
      have hb : b ≠ a := by
        rintro rfl
        exact hcalls.2 rfl
      obtain ⟨w, e, _⟩ := request_eq hs b new
      rw [e]
      rcases hcases with ⟨hkept, hbehind⟩ | ⟨hnot, hgone⟩
      · have h := behind_put hs hbehind hb w
        split at h
        case isTrue hroom => exact .inl ⟨⟨hkept, nofun, hroom⟩, h⟩
        case isFalse hfull => exact .inr ⟨fun hk => hfull hk.2.2, h⟩
      · refine .inr ⟨fun hk => hnot hk.1, ?_⟩
        intro hmem
        have hmem' := ((List.take_sublist _ _).map _).subset hmem
        rcases List.mem_cons.mp hmem' with e | hmem'
        · exact hb e.symm
        · exact hgone (mem_keys_without.mp hmem').1
    | @remove b =>
      by_cases hb : b = a
      · subst hb
        exact .inr ⟨fun hk => hk.2.1 rfl, fun hmem => (mem_keys_without.mp hmem).2 rfl⟩
      · rcases hcases with ⟨hkept, hbehind⟩ | ⟨hnot, hgone⟩
        · refine .inl ⟨⟨hkept, fun e => hb (by cases e; rfl), ?_⟩, behind_without hbehind hb⟩
          refine Nat.lt_of_le_of_lt (Finset.card_le_card ?_) (hkept.2 calls (List.prefix_refl _))
          exact Finset.erase_subset_erase _ (Finset.erase_subset _ _)
        · exact .inr ⟨fun hk => hnot hk.1, fun hmem => hgone (mem_keys_without.mp hmem).1⟩

/-- A key that was requested has its value as long as it is kept, and none after. -/
theorem lookup_run {calls : List (Call α)} {l l' : List (α × β)}
    (hsound : Sound capacity ((a, value) :: l)) (r : Run (Step capacity) ((a, value) :: l) calls l')
    (hcalls : .request a ∉ calls) :
    Sound capacity l' ∧ ((Kept capacity a calls ∧ lookup l' a = some value) ∨
      (¬ Kept capacity a calls ∧ lookup l' a = none)) := by
  obtain ⟨hs, ⟨hkept, front, rest, rfl, e⟩ | ⟨hnot, hgone⟩⟩ := behind_run hsound r hcalls
  · refine ⟨hs, .inl ⟨hkept, ?_⟩⟩
    rw [lookup_append front (card_front hs.nodup e).2, lookup_cons_self]
  · exact ⟨hs, .inr ⟨hnot, lookup_eq_none.mpr hgone⟩⟩

end

/-! ## Room for all live keys -/

section
variable {capacity : ℕ} {l : List (α × β)}

/-- Where the keys and the one that is requested have room, nothing is dropped. -/
lemma lookup_put_of_room (h : Sound capacity l) {a : α}
    (hroom : (insert a (keys l).toFinset).card ≤ capacity) (value : β) :
    (keys (put capacity l a value)).toFinset = insert a (keys l).toFinset ∧
      ∀ b, lookup (put capacity l a value) b = if b = a then some value else lookup l b := by
  have hkeys : (keys ((a, value) :: without l a)).toFinset = insert a (keys l).toFinset := by
    ext x
    simp only [keys_cons, List.mem_toFinset, List.mem_cons, mem_keys_without, Finset.mem_insert]
    by_cases hx : x = a
    · simp [hx]
    · simp [hx]
  have hnodup : (keys ((a, value) :: without l a)).Nodup := by
    rw [keys_cons, List.nodup_cons]
    exact ⟨fun hmem => (mem_keys_without.mp hmem).2 rfl, nodup_without h.nodup⟩
  have hput : put capacity l a value = (a, value) :: without l a := by
    apply List.take_of_length_le
    rw [← hkeys, List.toFinset_card_of_nodup hnodup, keys, List.length_map] at hroom
    exact hroom
  rw [hput]
  refine ⟨hkeys, ?_⟩
  intro b
  by_cases hb : b = a
  · rw [if_pos hb, hb, lookup_cons_self]
  · rw [if_neg hb, lookup_cons_of_ne hb, lookup_without, if_neg hb]

end

end Recency
