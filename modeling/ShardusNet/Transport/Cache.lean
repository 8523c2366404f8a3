import ShardusNet.Lib.Recency
import ShardusNet.Wire.Listener
import Mathlib.Data.PNat.Basic
/-!
# Connection caches

Port of `ConnectionCache` and its two implementations in `shardus_net/src/shardus_net_sender.rs`.
Connections are known by their numbers; `get_or_insert` is given the number a new one would have.

The `lru` crate is a parameter: `LruCrate` holds the functions the code uses. Its documentation says
what they do to the entries of a cache and their order (`LruCrate.Documented`). For most purposes it
is enough what they do to the contents (`LruCrate.Lawful`): a `get` finds what is there, a `put` may
drop other entries, a `pop` removes.

* `find_getOrInsert`: the connection is the one that was there, or the new one, which then is there.
* `find_remove`: a connection that is removed is there no more, and the others are.
-/

namespace ShardusNet.Transport
open Wire Recency

/-- Connections and streams are numbered in lists that only grow, so that a number keeps its
    address. -/
lemma getElem?_of_prefix {α : Type*} {l l' : List α} {i : ℕ} {a} (h : l <+: l') (hi : l[i]? = some a) :
    l'[i]? = some a := by
  obtain ⟨_, rfl⟩ := h
  obtain ⟨hlt, _⟩ := List.getElem?_eq_some_iff.mp hi
  rw [List.getElem?_append_left hlt, hi]

/-- `lru::LruCache<SocketAddr, Arc<Connection>>`. -/
structure LruCrate (L : Type*) where
  new : ℕ+ → L
  get : L → SocketAddr → Option ℕ × L
  put : L → SocketAddr → ℕ → L
  pop : L → SocketAddr → Option ℕ × L

/-- What the functions do to the contents of a cache. -/
structure LruCrate.Lawful {L : Type*} (lru : LruCrate L) (find : L → SocketAddr → Option ℕ) : Prop where
  new : ∀ capacity a, find (lru.new capacity) a = none
  get_fst : ∀ l a, (lru.get l a).1 = find l a
  get_snd : ∀ l a, find (lru.get l a).2 = find l
  put_same : ∀ l a connection, find (lru.put l a connection) a = some connection
  put_other : ∀ l a connection b, b ≠ a →
    find (lru.put l a connection) b = find l b ∨ find (lru.put l a connection) b = none
  pop_snd : ∀ l a b, find (lru.pop l a).2 b = if b = a then none else find l b

/-- What the functions do to the capacity and the entries of a cache, with the one that was used
    last in front: `get` makes an entry the most recent, `put` on a full cache drops the least
    recent one, `pop` removes. -/
structure LruCrate.Documented {L : Type*} (lru : LruCrate L) (capacity : L → ℕ+)
    (entries : L → List (SocketAddr × ℕ)) : Prop where
  new : ∀ c, capacity (lru.new c) = c ∧ entries (lru.new c) = []
  get_fst : ∀ l a, (lru.get l a).1 = lookup (entries l) a
  get_some : ∀ {l a connection}, lookup (entries l) a = some connection →
    entries (lru.get l a).2 = (a, connection) :: without (entries l) a
  get_none : ∀ {l a}, lookup (entries l) a = none → entries (lru.get l a).2 = entries l
  get_capacity : ∀ l a, capacity (lru.get l a).2 = capacity l
  put_entries : ∀ l a connection,
    entries (lru.put l a connection) = Recency.put (capacity l) (entries l) a connection
  put_capacity : ∀ l a connection, capacity (lru.put l a connection) = capacity l
  pop_entries : ∀ l a, entries (lru.pop l a).2 = without (entries l) a
  pop_capacity : ∀ l a, capacity (lru.pop l a).2 = capacity l

/-- What is documented of the entries says what happens to the contents. -/
lemma LruCrate.Documented.lawful {L : Type*} {lru : LruCrate L} {capacity entries}
    (h : lru.Documented capacity entries) : lru.Lawful fun l => lookup (entries l) where
  new c a := by
    rw [(h.new c).2]
    rfl
  get_fst := h.get_fst
  get_snd l a := by
    funext b
    cases hl : lookup (entries l) a with
    | none => rw [h.get_none hl]
    | some connection =>
      rw [h.get_some hl]
      by_cases hb : b = a
      · rw [hb, lookup_cons_self, hl]
      · rw [lookup_cons_of_ne hb, lookup_without, if_neg hb]
  put_same l a connection := by
    obtain ⟨n, hn⟩ := Nat.exists_eq_succ_of_ne_zero (capacity l).ne_zero
    rw [h.put_entries, Recency.put, hn, List.take_succ_cons, lookup_cons_self]
  put_other l a connection b hb := by
    rw [h.put_entries]
    rcases lookup_take (capacity l) ((a, connection) :: without (entries l) a) b with e | e
    · rw [Recency.put, e, lookup_cons_of_ne hb, lookup_without, if_neg hb]
      exact .inl rfl
    · exact .inr e
  pop_snd l a b := by rw [h.pop_entries, lookup_without]

/-- A `get` finds what is there and leaves the contents. -/
lemma LruCrate.Lawful.get_eq {L : Type*} {lru : LruCrate L} {find} (h : lru.Lawful find) (l a) :
    ∃ l', lru.get l a = (find l a, l') ∧ find l' = find l :=
  ⟨(lru.get l a).2, Prod.ext (h.get_fst l a) rfl, h.get_snd l a⟩

/-- `dyn ConnectionCache`: one of the two implementations. -/
inductive ConnectionCache (L : Type*) where
  | hashMap (connections : SocketAddr → Option ℕ)
  | lruCache (connections : L)

section
variable {L : Type*} (lru : LruCrate L)

/-- The cache that `create_shardus_net_sender` makes. -/
def createConnections (useLru : Bool) (lruSize : ℕ+) : ConnectionCache L :=
  if useLru then .lruCache (lru.new lruSize) else .hashMap fun _ => none

namespace ConnectionCache

/-- `get_or_insert`. -/
def getOrInsert : ConnectionCache L → SocketAddr → ℕ → ℕ × ConnectionCache L
  | .hashMap connections, address, new =>
    match connections address with
    | some connection => (connection, .hashMap connections)
    | none => (new, .hashMap (Function.update connections address (some new)))
  | .lruCache connections, address, new =>
    match lru.get connections address with
    | (some connection, connections) => (connection, .lruCache connections)
    | (none, connections) => (new, .lruCache (lru.put connections address new))

/-- `remove`. -/
def remove : ConnectionCache L → SocketAddr → Option ℕ × ConnectionCache L
  | .hashMap connections, address =>
    (connections address, .hashMap (Function.update connections address none))
  | .lruCache connections, address =>
    ((lru.pop connections address).1, .lruCache (lru.pop connections address).2)

/-- The connection that is cached for an address. -/
def find (find : L → SocketAddr → Option ℕ) : ConnectionCache L → SocketAddr → Option ℕ
  | .hashMap connections => connections
  | .lruCache connections => find connections

variable {lru} {find : L → SocketAddr → Option ℕ}

/-- A new cache is empty. -/
lemma find_createConnections (h : lru.Lawful find) (useLru lruSize a) :
    (createConnections lru useLru lruSize).find find a = none := by
  cases useLru with
  | true => exact h.new lruSize a
  | false => rfl

/-- What `get_or_insert` gives is what was there, or what is there now; the other entries stay or
    go. -/
lemma find_getOrInsert (h : lru.Lawful find) (cache : ConnectionCache L) (a new) :
    ((cache.find find a = some (cache.getOrInsert lru a new).1 ∧
        (cache.getOrInsert lru a new).2.find find = cache.find find) ∨
      (cache.find find a = none ∧ (cache.getOrInsert lru a new).1 = new ∧
        (cache.getOrInsert lru a new).2.find find a = some new ∧
        ∀ b, b ≠ a → (cache.getOrInsert lru a new).2.find find b = cache.find find b ∨
          (cache.getOrInsert lru a new).2.find find b = none)) := by
  cases cache with
  | hashMap connections =>
    cases hc : connections a with
    | some connection => exact .inl (by simp [getOrInsert, ConnectionCache.find, hc])
    | none =>
      refine .inr ⟨hc, by simp [getOrInsert, hc], by simp [getOrInsert, ConnectionCache.find, hc], ?_⟩
      intro b hb
      exact .inl (by simp [getOrInsert, ConnectionCache.find, hc, hb])
  | lruCache l =>
    obtain ⟨l', hget, hl'⟩ := h.get_eq l a
    cases hc : find l a with
    | some connection =>
      rw [hc] at hget
      refine .inl ⟨?_, ?_⟩
      · simp only [getOrInsert, ConnectionCache.find, hget, hc]
      · simp only [getOrInsert, ConnectionCache.find, hget, hl']
    | none =>
      rw [hc] at hget
      refine .inr ⟨hc, ?_, ?_, ?_⟩
      · simp only [getOrInsert, hget]
      · simp only [getOrInsert, ConnectionCache.find, hget]
        exact h.put_same l' a new
      · intro b hb
        simp only [getOrInsert, ConnectionCache.find, hget, ← hl']
        exact h.put_other l' a new b hb

/-- What `remove` leaves. -/
lemma find_remove (h : lru.Lawful find) (cache : ConnectionCache L) (a b) :
    (cache.remove lru a).2.find find b = if b = a then none else cache.find find b := by
  cases cache with
  | hashMap connections => exact Function.update_apply connections a none b
  | lruCache l => exact h.pop_snd l a b

end ConnectionCache

end

section List

/-- What the crate does, on a list with the entry that was used last in front. -/
def listLru : LruCrate (ℕ+ × List (SocketAddr × ℕ)) where
  new capacity := (capacity, [])
  get l a :=
    match l.2.find? (·.1 = a) with
    | some entry => (some entry.2, l.1, entry :: l.2.filter (·.1 ≠ a))
    | none => (none, l)
  put l a connection := (l.1, ((a, connection) :: l.2.filter (·.1 ≠ a)).take l.1)
  pop l a := ((l.2.find? (·.1 = a)).map Prod.snd, l.1, l.2.filter (·.1 ≠ a))

/-- The connection in the list. -/
def listFind (l : ℕ+ × List (SocketAddr × ℕ)) (a : SocketAddr) : Option ℕ :=
  (l.2.find? (·.1 = a)).map Prod.snd

/-- It is as the documentation says. -/
lemma documented_listLru : listLru.Documented Prod.fst Prod.snd where
  new _ := ⟨rfl, rfl⟩
  get_fst l a := by
    simp only [listLru, lookup]
    cases l.2.find? (·.1 = a) <;> rfl
  get_some := by
    intro l a connection hl
    obtain ⟨⟨b, _⟩, hfind, rfl⟩ := Option.map_eq_some_iff.mp hl
    have hb : b = a := by simpa using List.find?_some hfind
    simp only [listLru, hfind, hb]
    rfl
  get_none := by
    intro l a hl
    have hfind : l.2.find? (·.1 = a) = none := Option.map_eq_none_iff.mp hl
    simp only [listLru, hfind]
  get_capacity l a := by
    simp only [listLru]
    cases l.2.find? (·.1 = a) <;> rfl
  put_entries _ _ _ := rfl
  put_capacity _ _ _ := rfl
  pop_entries _ _ := rfl
  pop_capacity _ _ := rfl

/-- Its contents are as the documentation says. -/
lemma lawful_listLru : listLru.Lawful listFind := documented_listLru.lawful

end List

end ShardusNet.Transport
