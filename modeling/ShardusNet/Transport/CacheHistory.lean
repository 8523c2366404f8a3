import ShardusNet.Transport.Cache
/-!
# Histories of a cache

Which connection `get_or_insert` gives, by the calls that were made before. A history is a list of
calls of `get_or_insert` (`.request`) and `remove`; a `Session` keeps the addresses of the
connections that were made, and a connection is known by its position among them.

* `find_lruCache`: the LRU cache has the connection it gave last for an address as long as the
  address is not removed and never as many others as the capacity were live since (`Recency.Kept`).
* `find_hashMap`: the `HashMap` has it until the address is removed.
* `agree_concat`: while the LRU cache has room for all live addresses, both return the same.
* `getOrInsert_history`: what `get_or_insert` gives in every history.
-/

namespace ShardusNet.Transport
open Wire Runs Recency

variable {L : Type*}

/-- A cache, and the addresses of the connections that were made, in order. -/
structure Session (L : Type*) where
  connections : ConnectionCache L
  made : List SocketAddr

namespace Session

section
variable (lru : LruCrate L)

/-- The session of `create_shardus_net_sender`. -/
def start (useLru : Bool) (lruSize : ℕ+) : Session L := ⟨createConnections lru useLru lruSize, []⟩

/-- `get_or_insert`: the connection, and what is left. -/
def getOrInsert (s : Session L) (address : SocketAddr) : ℕ × Session L :=
  let (connection, connections) := s.connections.getOrInsert lru address s.made.length
  (connection, ⟨connections, if connection = s.made.length then s.made ++ [address] else s.made⟩)

/-- A call of `get_or_insert` or `remove`. -/
def call (s : Session L) : Call SocketAddr → Session L
  | .request address => (s.getOrInsert lru address).2
  | .remove address => { s with connections := (s.connections.remove lru address).2 }

/-- The session after a history. -/
def run (s : Session L) (calls : List (Call SocketAddr)) : Session L := calls.foldl (call lru) s

/-- The connection that a call returns, if it is one of `get_or_insert`. -/
def answer (s : Session L) : Call SocketAddr → Option ℕ
  | .request address => some (s.getOrInsert lru address).1
  | .remove _ => none

/-- What the calls of a history return. -/
def answers (s : Session L) : List (Call SocketAddr) → List (Option ℕ)
  | [] => []
  | c :: calls => s.answer lru c :: (s.call lru c).answers calls

end

variable {lru : LruCrate L} {capacity : L → ℕ+} {entries : L → List (SocketAddr × ℕ)}

/-- One call more. -/
lemma run_concat (s : Session L) (calls c) : s.run lru (calls ++ [c]) = (s.run lru calls).call lru c := by
  rw [run, run, List.foldl_append]
  rfl

/-- Some calls after others. -/
lemma run_append (s : Session L) (calls calls') :
    s.run lru (calls ++ calls') = (s.run lru calls).run lru calls' := List.foldl_append ..

/-- What two histories in a row return. -/
lemma answers_append (s : Session L) (calls calls') :
    s.answers lru (calls ++ calls') = s.answers lru calls ++ (s.run lru calls).answers lru calls' := by
  induction calls generalizing s with
  | nil => rfl
  | cons c calls ih =>
    rw [List.cons_append, answers, ih, answers, List.cons_append, run, run, List.foldl_cons]

/-- One call more has its own answer. -/
lemma answers_concat (s : Session L) (calls c) :
    s.answers lru (calls ++ [c]) = s.answers lru calls ++ [(s.run lru calls).answer lru c] :=
  answers_append s calls [c]

/-! ## Addresses and new connections -/

/-- What is cached for an address is a connection that was made for it. -/
def Valid (entries : L → List (SocketAddr × ℕ)) (s : Session L) : Prop :=
  ∀ a id, s.connections.find (fun l => lookup (entries l)) a = some id → s.made[id]? = some a

/-- A connection is made when the one that is returned has the next number. -/
lemma getOrInsert_made (s : Session L) (a) : (s.getOrInsert lru a).2.made =
    if (s.getOrInsert lru a).1 = s.made.length then s.made ++ [a] else s.made := rfl

/-- What `get_or_insert` gives: what is cached, or the next connection. -/
lemma getOrInsert_cases (h : lru.Documented capacity entries) {s : Session L} (hs : s.Valid entries) (a) :
    (s.connections.find (fun l => lookup (entries l)) a = some (s.getOrInsert lru a).1 ∧
        (s.getOrInsert lru a).2.made = s.made) ∨
      s.connections.find (fun l => lookup (entries l)) a = none ∧
        (s.getOrInsert lru a).1 = s.made.length ∧ (s.getOrInsert lru a).2.made = s.made ++ [a] := by
  rcases ConnectionCache.find_getOrInsert h.lawful s.connections a s.made.length with
    ⟨hfound, _⟩ | ⟨hnone, hnew, _, _⟩
  · have hlt := (List.getElem?_eq_some_iff.mp (hs a _ hfound)).1
    refine .inl ⟨hfound, ?_⟩
    simp only [getOrInsert, if_neg (Nat.ne_of_lt hlt)]
  · refine .inr ⟨hnone, hnew, ?_⟩
    simp only [getOrInsert, hnew, if_true]

/-- The connection that `get_or_insert` gives has been made for the address. -/
lemma getOrInsert_address (h : lru.Documented capacity entries) {s : Session L} (hs : s.Valid entries)
    (a) : (s.getOrInsert lru a).2.made[(s.getOrInsert lru a).1]? = some a := by
  rcases getOrInsert_cases h hs a with ⟨hfound, hmade⟩ | ⟨_, hnew, hmade⟩
  · rw [hmade]
    exact hs a _ hfound
  · rw [hmade, hnew, List.getElem?_concat_length]

/-- Connections stay made. -/
lemma made_grows (h : lru.Documented capacity entries) {s : Session L} (hs : s.Valid entries) (c) :
    s.made <+: (s.call lru c).made := by
  cases c with
  | request a =>
    rcases getOrInsert_cases h hs a with ⟨_, hmade⟩ | ⟨_, _, hmade⟩
    · rw [call, hmade]
    · rw [call, hmade]
      exact List.prefix_append _ _
  | remove a => exact List.prefix_refl _

/-- One call keeps the addresses right. -/
lemma valid_call (h : lru.Documented capacity entries) {s : Session L} (hs : s.Valid entries) (c) :
    (s.call lru c).Valid entries := by
  intro b id hid
  cases c with
  | request a =>
    have hbefore : ∀ {id}, s.connections.find (fun l => lookup (entries l)) b = some id →
        (s.getOrInsert lru a).2.made[id]? = some b := by
      intro id hid
      exact getElem?_of_prefix (made_grows h hs (.request a)) (hs b id hid)
    have hid' : (s.connections.getOrInsert lru a s.made.length).2.find (fun l => lookup (entries l)) b =
        some id := hid
    rcases ConnectionCache.find_getOrInsert h.lawful s.connections a s.made.length with
      ⟨_, hsame⟩ | ⟨_, hnew, hthere, hother⟩
    · rw [hsame] at hid'
      exact hbefore hid'
    · by_cases hb : b = a
      · rw [hb, hthere] at hid'
        cases hid'
        have haddress := getOrInsert_address h hs a
        have hfst : (s.getOrInsert lru a).1 = s.made.length := hnew
        rw [hfst] at haddress
        rw [hb]
        exact haddress
      · rcases hother b hb with e | e
        · rw [e] at hid'
          exact hbefore hid'
        · rw [e] at hid'
          cases hid'
  | remove a =>
    simp only [call, ConnectionCache.find_remove h.lawful] at hid
    split at hid
    case isTrue => cases hid
    case isFalse => exact hs b id hid

/-- After any history the addresses are right, and every connection that was returned has been
    made. -/
lemma valid_run (h : lru.Documented capacity entries) (useLru lruSize) (calls : List (Call SocketAddr)) :
    ((start lru useLru lruSize).run lru calls).Valid entries ∧
      ∀ id, some id ∈ (start lru useLru lruSize).answers lru calls →
        id < ((start lru useLru lruSize).run lru calls).made.length := by
  induction calls using List.reverseRecOn with
  | nil =>
    refine ⟨?_, ?_⟩
    · intro a id hid
      have hnone := ConnectionCache.find_createConnections h.lawful useLru lruSize a
      have hid' : (createConnections lru useLru lruSize).find (fun l => lookup (entries l)) a = some id :=
        hid
      rw [hnone] at hid'
      cases hid'
    · intro id hid
      cases hid
  | append_singleton calls c ih =>
    obtain ⟨hvalid, hanswers⟩ := ih
    rw [run_concat, answers_concat]
    refine ⟨valid_call h hvalid c, ?_⟩
    intro id hid
    rcases List.mem_append.mp hid with hid | hid
    · exact Nat.lt_of_lt_of_le (hanswers id hid) (made_grows h hvalid c).length_le
    · cases c with
      | request a =>
        have haddress := getOrInsert_address h hvalid a
        cases List.mem_singleton.mp hid
        exact (List.getElem?_eq_some_iff.mp haddress).1
      | remove a => cases List.mem_singleton.mp hid

/-- A call of `get_or_insert` gives a connection that no call before it has returned, to its
    address. -/
def GetsNew (lru : LruCrate L) (useLru : Bool) (lruSize : ℕ+) (calls : List (Call SocketAddr))
    (a : SocketAddr) : Prop :=
  some (((start lru useLru lruSize).run lru calls).getOrInsert lru a).1 ∉
      (start lru useLru lruSize).answers lru calls ∧
    (((start lru useLru lruSize).run lru calls).getOrInsert lru a).2.made[
      (((start lru useLru lruSize).run lru calls).getOrInsert lru a).1]? = some a

/-- What is not cached is new. -/
lemma getsNew_of_find_none (h : lru.Documented capacity entries) {useLru lruSize calls a}
    (hnone : ((start lru useLru lruSize).run lru calls).connections.find
      (fun l => lookup (entries l)) a = none) : GetsNew lru useLru lruSize calls a := by
  obtain ⟨hvalid, hanswers⟩ := valid_run h useLru lruSize calls
  refine ⟨?_, getOrInsert_address h hvalid a⟩
  intro hmem
  rcases getOrInsert_cases h hvalid a with ⟨hfound, _⟩ | ⟨_, hnew, _⟩
  · rw [hnone] at hfound
    cases hfound
  · rw [hnew] at hmem
    exact absurd (hanswers _ hmem) (Nat.lt_irrefl _)

/-! ## The LRU cache -/

/-- The LRU cache of this capacity holds these entries. -/
def Holds (capacity : L → ℕ+) (entries : L → List (SocketAddr × ℕ)) (s : Session L) (c : ℕ+)
    (es : List (SocketAddr × ℕ)) : Prop :=
  ∃ l, s.connections = .lruCache l ∧ capacity l = c ∧ entries l = es

/-- `get_or_insert` on the LRU cache is a request of the address. -/
lemma getOrInsert_lruCache (h : lru.Documented capacity entries) {s : Session L} {c es}
    (hs : s.Holds capacity entries c es) (a) :
    (s.getOrInsert lru a).1 = (request c es a s.made.length).1 ∧
      (s.getOrInsert lru a).2.Holds capacity entries c (request c es a s.made.length).2 := by
  obtain ⟨l, hl, rfl, rfl⟩ := hs
  cases hget : lookup (entries l) a with
  | some connection =>
    have hfst : lru.get l a = (some connection, (lru.get l a).2) :=
      Prod.ext ((h.get_fst l a).trans hget) rfl
    have e : s.connections.getOrInsert lru a s.made.length =
        (connection, .lruCache (lru.get l a).2) := by
      rw [hl, ConnectionCache.getOrInsert, hfst]
    simp only [getOrInsert, e, request, hget, true_and]
    exact ⟨_, rfl, h.get_capacity l a, h.get_some hget⟩
  | none =>
    have hfst : lru.get l a = (none, (lru.get l a).2) := Prod.ext ((h.get_fst l a).trans hget) rfl
    have e : s.connections.getOrInsert lru a s.made.length =
        (s.made.length, .lruCache (lru.put (lru.get l a).2 a s.made.length)) := by
      rw [hl, ConnectionCache.getOrInsert, hfst]
    simp only [getOrInsert, e, request, hget, true_and]
    refine ⟨_, rfl, ?_, ?_⟩
    · rw [h.put_capacity, h.get_capacity]
    · rw [h.put_entries, h.get_capacity, h.get_none hget]

/-- A call on the LRU cache is a step of its entries. -/
lemma call_lruCache (h : lru.Documented capacity entries) {s : Session L} {c es}
    (hs : s.Holds capacity entries c es) (call) :
    ∃ es', (s.call lru call).Holds capacity entries c es' ∧ Step c es call es' := by
  cases call with
  | request a => exact ⟨_, (getOrInsert_lruCache h hs a).2, .request _⟩
  | remove a =>
    obtain ⟨l, hl, rfl, rfl⟩ := hs
    refine ⟨without (entries l) a, ⟨(lru.pop l a).2, ?_, h.pop_capacity l a, h.pop_entries l a⟩, .remove⟩
    simp only [Session.call, hl, ConnectionCache.remove]

/-- A history on the LRU cache is a run of its entries. -/
lemma run_lruCache (h : lru.Documented capacity entries) {s : Session L} {c es}
    (hs : s.Holds capacity entries c es) (calls) :
    ∃ es', (s.run lru calls).Holds capacity entries c es' ∧ Run (Step c) es calls es' := by
  induction calls using List.reverseRecOn with
  | nil => exact ⟨es, hs, .refl⟩
  | append_singleton calls call ih =>
    obtain ⟨es', hs', r⟩ := ih
    obtain ⟨es'', hs'', hstep⟩ := call_lruCache h hs' call
    rw [run_concat]
    exact ⟨es'', hs'', r.tail hstep⟩

/-- The LRU cache at its creation. -/
lemma holds_start (h : lru.Documented capacity entries) (c : ℕ+) :
    (start lru true c).Holds capacity entries c [] :=
  ⟨lru.new c, rfl, (h.new c).1, (h.new c).2⟩

/-- The entries of the LRU cache after a history are distinct and have room. -/
lemma sound_run {c : ℕ+} {es : List (SocketAddr × ℕ)} {calls} (r : Run (Step c) [] calls es) :
    Sound c es :=
  r.invariant (I := Sound c) ⟨List.nodup_nil, Nat.zero_le _⟩ sound_step

/-- After a request of an address and calls that do not request it again, the LRU cache has the
    connection that was returned as long as it is kept, and none after. -/
lemma find_lruCache (h : lru.Documented capacity entries) (c : ℕ+) (pre : List (Call SocketAddr))
    {post : List (Call SocketAddr)} {a} (hpost : .request a ∉ post) :
    (Kept c a post ∧
      ((start lru true c).run lru (pre ++ .request a :: post)).connections.find
        (fun l => lookup (entries l)) a = some (((start lru true c).run lru pre).getOrInsert lru a).1) ∨
    (¬ Kept c a post ∧
      ((start lru true c).run lru (pre ++ .request a :: post)).connections.find
        (fun l => lookup (entries l)) a = none) := by
  obtain ⟨es, hs, r⟩ := run_lruCache h (holds_start h c) pre
  obtain ⟨hanswer, hs'⟩ := getOrInsert_lruCache h hs a
  obtain ⟨value, e, _⟩ := request_eq (sound_run r) a ((start lru true c).run lru pre).made.length
  rw [e] at hanswer hs'
  obtain ⟨n, hn⟩ := Nat.exists_eq_succ_of_ne_zero c.ne_zero
  have hfront : put c es a value = (a, value) :: (without es a).take n := by
    rw [put, hn, List.take_succ_cons]
  have hsound := sound_put (sound_run r) a value
  obtain ⟨es', ⟨l, hl, _, rfl⟩, r'⟩ := run_lruCache h hs' post
  simp only [hfront] at r' hsound
  have hrun : (start lru true c).run lru (pre ++ .request a :: post) =
      (((start lru true c).run lru pre).getOrInsert lru a).2.run lru post := by
    rw [run_append]
    rfl
  rw [hrun, hanswer, hl]
  exact (lookup_run hsound r' hpost).2

/-! ## The `HashMap` -/

/-- A call on the `HashMap` changes the connection of its own address only. -/
lemma call_hashMap (lru : LruCrate L) {s : Session L} {m : SocketAddr → Option ℕ} (hs : s.connections = .hashMap m) (call) :
    ∃ m', (s.call lru call).connections = .hashMap m' ∧
      match call with
      | .request a => m' = Function.update m a (some ((m a).getD s.made.length)) ∧
          (s.getOrInsert lru a).1 = (m a).getD s.made.length
      | .remove a => m' = Function.update m a none := by
  cases call with
  | request a =>
    have e : s.connections.getOrInsert lru a s.made.length =
        ((m a).getD s.made.length, .hashMap (Function.update m a (some ((m a).getD s.made.length)))) := by
      cases hm : m a with
      | some id =>
        have hsame : Function.update m a (some id) = m := by rw [← hm, Function.update_eq_self]
        simp only [hs, ConnectionCache.getOrInsert, hm, Option.getD_some, hsame]
      | none => simp only [hs, ConnectionCache.getOrInsert, hm, Option.getD_none]
    exact ⟨_, by simp only [Session.call, getOrInsert, e], rfl, by simp only [getOrInsert, e]⟩
  | remove a => exact ⟨_, by simp only [Session.call, hs, ConnectionCache.remove], rfl⟩

/-- After a history the `HashMap` is one. -/
lemma run_hashMap (lru : LruCrate L) {s : Session L} {m : SocketAddr → Option ℕ} (hs : s.connections = .hashMap m)
    (calls) : ∃ m', (s.run lru calls).connections = .hashMap m' := by
  induction calls using List.reverseRecOn with
  | nil => exact ⟨m, hs⟩
  | append_singleton calls call ih =>
    obtain ⟨m', hm'⟩ := ih
    obtain ⟨m'', hm'', _⟩ := call_hashMap lru hm' call
    rw [run_concat]
    exact ⟨m'', hm''⟩

/-- After a request of an address and calls that do not request it again, the `HashMap` has the
    connection that was returned until it is removed. -/
lemma find_hashMap (c : ℕ+) (pre : List (Call SocketAddr)) {post : List (Call SocketAddr)} {a}
    (hpost : .request a ∉ post) :
    (.remove a ∉ post ∧
      ((start lru false c).run lru (pre ++ .request a :: post)).connections.find
        (fun l => lookup (entries l)) a = some (((start lru false c).run lru pre).getOrInsert lru a).1) ∨
    (¬ .remove a ∉ post ∧
      ((start lru false c).run lru (pre ++ .request a :: post)).connections.find
        (fun l => lookup (entries l)) a = none) := by
  obtain ⟨m, hm⟩ : ∃ m, ((start lru false c).run lru pre).connections = .hashMap m :=
    run_hashMap lru (m := fun _ => none) rfl pre
  induction post using List.reverseRecOn with
  | nil =>
    obtain ⟨m', hm', hupdate, hanswer⟩ := call_hashMap lru hm (.request a)
    refine .inl ⟨List.not_mem_nil, ?_⟩
    rw [run_concat, hm', hanswer, hupdate]
    exact Function.update_self ..
  | append_singleton post call ih =>
    rw [List.mem_append, List.mem_singleton, not_or] at hpost
    obtain ⟨m', hm'⟩ := run_hashMap lru hm (.request a :: post)
    rw [← run_append] at hm'
    obtain ⟨m'', hm'', hcall⟩ := call_hashMap lru hm' call
    have ih := ih hpost.1
    rw [hm'] at ih
    have hrun : pre ++ .request a :: (post ++ [call]) = (pre ++ .request a :: post) ++ [call] := by
      rw [List.append_assoc, List.cons_append]
    rw [hrun, run_concat, hm'', List.mem_append, List.mem_singleton]
    cases call with
    | request b =>
      have hb : a ≠ b := fun e => hpost.2 (e ▸ rfl)
      have hsame : m'' a = m' a := by rw [hcall.1, Function.update_of_ne hb]
      simp only [ConnectionCache.find, hsame, reduceCtorEq, or_false]
      exact ih
    | remove b =>
      by_cases hb : a = b
      · refine .inr ⟨fun h => h (.inr (by rw [hb])), ?_⟩
        simp only [ConnectionCache.find, hcall, hb, Function.update_self]
      · have hsame : m'' a = m' a := by rw [hcall, Function.update_of_ne hb]
        simp only [ConnectionCache.find, hsame, Call.remove.injEq, hb, or_false]
        exact ih

/-! ## Both caches -/

/-- The two caches after a history in which all live addresses have room: they hold the same, and
    have returned the same. -/
structure Agree (lru : LruCrate L) (capacity : L → ℕ+) (entries : L → List (SocketAddr × ℕ)) (c : ℕ+)
    (calls : List (Call SocketAddr)) (es : List (SocketAddr × ℕ)) (m : SocketAddr → Option ℕ) : Prop where
  lruCache : ((start lru true c).run lru calls).Holds capacity entries c es
  hashMap : ((start lru false c).run lru calls).connections = .hashMap m
  sound : Sound c es
  live : (keys es).toFinset = live calls
  lookup : ∀ a, lookup es a = m a
  made : ((start lru true c).run lru calls).made = ((start lru false c).run lru calls).made
  answers : (start lru true c).answers lru calls = (start lru false c).answers lru calls

/-- Where the live addresses have room, the two caches go on to agree. -/
lemma agree_concat (h : lru.Documented capacity entries) {c : ℕ+} {calls call es m}
    (hagree : Agree lru capacity entries c calls es m) (hroom : (live (calls ++ [call])).card ≤ c) :
    ∃ es' m', Agree lru capacity entries c (calls ++ [call]) es' m' := by
  obtain ⟨m', hm', hcall⟩ := call_hashMap lru hagree.hashMap call
  rw [live_concat] at hroom
  cases call with
  | request a =>
    obtain ⟨hanswer, hholds⟩ := getOrInsert_lruCache h hagree.lruCache a
    obtain ⟨value, e, hvalue⟩ := request_eq hagree.sound a ((start lru true c).run lru calls).made.length
    rw [e] at hanswer hholds
    obtain ⟨hupdate, hanswer'⟩ := hcall
    have hsame : value = (m a).getD ((start lru false c).run lru calls).made.length := by
      rw [hvalue, hagree.lookup, hagree.made]
    have hanswers : (((start lru true c).run lru calls).getOrInsert lru a).1 =
        (((start lru false c).run lru calls).getOrInsert lru a).1 := by
      rw [hanswer, hanswer', hsame]
    have hinsert : (insert a (keys es).toFinset).card ≤ (c : ℕ) := by
      rw [hagree.live]
      exact hroom
    obtain ⟨hkeys, hlookup⟩ := lookup_put_of_room hagree.sound hinsert value
    refine ⟨put c es a value, m', ?_⟩
    exact {
      lruCache := by
        rw [run_concat]
        exact hholds
      hashMap := by
        rw [run_concat]
        exact hm'
      sound := sound_put hagree.sound a value
      live := by
        rw [live_concat, hkeys, hagree.live]
        rfl
      lookup := by
        intro b
        rw [hlookup, hupdate, Function.update_apply, hsame, hagree.lookup]
      made := by
        rw [run_concat, run_concat]
        show (getOrInsert ..).2.made = (getOrInsert ..).2.made
        rw [getOrInsert_made, getOrInsert_made, hanswers, hagree.made]
      answers := by
        rw [answers_concat, answers_concat, hagree.answers, answer, answer, hanswers] }
  | remove a =>
    obtain ⟨es', hholds, hstep⟩ := call_lruCache h hagree.lruCache (.remove a)
    cases hstep
    refine ⟨without es a, m', ?_⟩
    exact {
      lruCache := by
        rw [run_concat]
        exact hholds
      hashMap := by
        rw [run_concat]
        exact hm'
      sound := sound_without hagree.sound a
      live := by
        rw [live_concat, Call.live, ← hagree.live]
        ext b
        rw [List.mem_toFinset, mem_keys_without, Finset.mem_erase, List.mem_toFinset, and_comm]
      lookup := by
        intro b
        rw [lookup_without, hcall, Function.update_apply, hagree.lookup]
      made := by
        rw [run_concat, run_concat]
        exact hagree.made
      answers := by
        rw [answers_concat, answers_concat, hagree.answers]
        rfl }

/-- Where in a history never more addresses are live than the LRU cache has room for, both caches
    return the same connections. -/
lemma answers_eq (h : lru.Documented capacity entries) {c : ℕ+} (calls : List (Call SocketAddr))
    (hroom : ∀ p, p <+: calls → (live p).card ≤ c) :
    ∃ es m, Agree lru capacity entries c calls es m := by
  induction calls using List.reverseRecOn with
  | nil =>
    refine ⟨[], fun _ => none, ?_⟩
    exact {
      lruCache := holds_start h c
      hashMap := rfl
      sound := ⟨List.nodup_nil, Nat.zero_le _⟩
      live := rfl
      lookup := fun _ => rfl
      made := rfl
      answers := rfl }
  | append_singleton calls call ih =>
    obtain ⟨es, m, hagree⟩ := ih fun p hp => hroom p (hp.trans (List.prefix_append _ _))
    exact agree_concat h hagree (hroom _ (List.prefix_refl _))

/-- The connection that `get_or_insert` gives after a history. -/
def gets (lru : LruCrate L) (useLru : Bool) (lruSize : ℕ+) (calls : List (Call SocketAddr))
    (a : SocketAddr) : ℕ := (((start lru useLru lruSize).run lru calls).getOrInsert lru a).1

/-- What a request that is still cached gives, and one that is not. -/
lemma gets_iff (h : lru.Documented capacity entries) {useLru lruSize pre post} {a : SocketAddr} {P : Prop}
    (hfind : (P ∧ ((start lru useLru lruSize).run lru (pre ++ .request a :: post)).connections.find
        (fun l => lookup (entries l)) a = some (gets lru useLru lruSize pre a)) ∨
      (¬ P ∧ ((start lru useLru lruSize).run lru (pre ++ .request a :: post)).connections.find
        (fun l => lookup (entries l)) a = none)) :
    (gets lru useLru lruSize (pre ++ .request a :: post) a = gets lru useLru lruSize pre a ↔ P) ∧
      (¬ P → GetsNew lru useLru lruSize (pre ++ .request a :: post) a) := by
  obtain ⟨hvalid, _⟩ := valid_run h useLru lruSize (pre ++ .request a :: post)
  rcases hfind with ⟨hP, hfound⟩ | ⟨hP, hnone⟩
  · refine ⟨⟨fun _ => hP, fun _ => ?_⟩, fun h => absurd hP h⟩
    rcases getOrInsert_cases h hvalid a with ⟨hsame, _⟩ | ⟨hnone, _⟩
    · exact Option.some.inj (hsame.symm.trans hfound)
    · rw [hfound] at hnone
      cases hnone
  · have hnew := getsNew_of_find_none h hnone
    refine ⟨⟨fun hsame => ?_, fun h => absurd h hP⟩, fun _ => hnew⟩
    -- the connection that was given before is among the answers, and the new one is not
    apply absurd _ hnew.1
    have hmem : some (gets lru useLru lruSize pre a) ∈
        (start lru useLru lruSize).answers lru (pre ++ .request a :: post) := by
      rw [answers_append]
      exact List.mem_append_right _ List.mem_cons_self
    rw [← hsame] at hmem
    exact hmem

/-- An address that was not requested is not cached. -/
lemma find_of_not_requested (h : lru.Documented capacity entries) (useLru lruSize)
    {calls : List (Call SocketAddr)} {a} (hcalls : .request a ∉ calls) :
    ((start lru useLru lruSize).run lru calls).connections.find
      (fun l => lookup (entries l)) a = none := by
  induction calls using List.reverseRecOn with
  | nil => exact ConnectionCache.find_createConnections h.lawful useLru lruSize a
  | append_singleton calls call ih =>
    rw [List.mem_append, List.mem_singleton, not_or] at hcalls
    have ih := ih hcalls.1
    rw [run_concat]
    cases call with
    | request b =>
      have hb : a ≠ b := fun e => hcalls.2 (e ▸ rfl)
      rcases ConnectionCache.find_getOrInsert h.lawful
        ((start lru useLru lruSize).run lru calls).connections b
        ((start lru useLru lruSize).run lru calls).made.length with ⟨_, hsame⟩ | ⟨_, _, _, hother⟩
      · exact (congrFun hsame a).trans ih
      · rcases hother a hb with e | e
        · exact e.trans ih
        · exact e
    | remove b =>
      refine (ConnectionCache.find_remove h.lawful _ b a).trans ?_
      rw [ih, ite_self]

/-- An address next to `sampleAddr`. -/
def otherAddr : SocketAddr := { sampleAddr with port := 44445 }

/-- What `get_or_insert` gives, in every history of a cache of every capacity: for a first request a
    new connection; else, from the LRU cache, the connection of the last request of the address
    exactly when it was not removed since and there was no moment since at which as many others as
    the capacity were live, and from the `HashMap` exactly when it was not removed since, and a new
    one if not. Both caches return the same where never more addresses are live than the
    capacity. -/
theorem getOrInsert_history (h : lru.Documented capacity entries) (c : ℕ+) :
    (∀ (pre post : List (Call SocketAddr)) (a : SocketAddr), .request a ∉ post →
      (gets lru true c (pre ++ .request a :: post) a = gets lru true c pre a ↔ Kept c a post) ∧
        (¬ Kept c a post → GetsNew lru true c (pre ++ .request a :: post) a)) ∧
    (∀ (pre post : List (Call SocketAddr)) (a : SocketAddr), .request a ∉ post →
      (gets lru false c (pre ++ .request a :: post) a = gets lru false c pre a ↔ .remove a ∉ post) ∧
        (¬ .remove a ∉ post → GetsNew lru false c (pre ++ .request a :: post) a)) ∧
    (∀ (useLru : Bool) (calls : List (Call SocketAddr)) (a : SocketAddr), .request a ∉ calls →
      GetsNew lru useLru c calls a) ∧
    ∀ calls : List (Call SocketAddr), (∀ p, p <+: calls → (live p).card ≤ c) →
      (start lru true c).answers lru calls = (start lru false c).answers lru calls ∧
        ((start lru true c).run lru calls).made = ((start lru false c).run lru calls).made := by
  refine ⟨?_, ?_, ?_, ?_⟩
  · intro pre post a hpost
    exact gets_iff h (find_lruCache h c pre hpost)
  · intro pre post a hpost
    exact gets_iff h (find_hashMap c pre hpost)
  · intro useLru calls a hcalls
    exact getsNew_of_find_none h (find_of_not_requested h useLru c hcalls)
  · intro calls hroom
    obtain ⟨es, m, hagree⟩ := answers_eq h calls hroom
    exact ⟨hagree.answers, hagree.made⟩

/-- The LRU cache with room for one connection makes a new one for an address after another was
    asked for, and the `HashMap` does not. -/
theorem getOrInsert_history_capacityOne :
    GetsNew listLru true 1 [.request sampleAddr, .request otherAddr] sampleAddr ∧
      gets listLru false 1 [.request sampleAddr, .request otherAddr] sampleAddr =
        gets listLru false 1 [] sampleAddr := by
  have hpost : Call.request sampleAddr ∉ [Call.request otherAddr] := by decide
  have hfull : ¬ Kept (1 : ℕ+) sampleAddr [.request otherAddr] := by
    intro h
    exact absurd (h.2 [.request otherAddr] (List.prefix_refl _)) (by decide)
  obtain ⟨hlru, hmap, _, _⟩ := getOrInsert_history documented_listLru 1
  exact ⟨(hlru [] _ _ hpost).2 hfull, (hmap [] _ _ hpost).1.mpr (by decide)⟩

end Session

end ShardusNet.Transport
