import ShardusNet.Lib.Runs
import ShardusNet.Node.TTLMap
/-!
# Maps with expiry in use

Runs of a `TTLMap`: calls of `set`, `get` and `delete`, and the callbacks of the timers, at times
that do not go back. A timer fires at its due time or later. Its callback is two events, since
`onExpiry` may call the map before the key is deleted: the call of `onExpiry` (`fire`), and the end
of the callback (`fired`).

* `LastSet`: the last `set` or `delete` of a key. `DeletedSince`: a `delete` of the key of a timer
  after the `set` that started it.
* `Clocked.Fits`: what the calls and timers have to meet, since `set` leaves the timer of the entry
  that it replaces, and a `get` of an expired entry leaves its timer.
* `get_lastSet`: where they do, a `get` answers by the last `set` or `delete`, and no callback comes
  after a `delete`.
* `fired_breaks`, `delete_breaks`: where they do not, one of the two fails.
-/

namespace ShardusNet.Node.TTLMap
open Runs

variable {V : Type*}

/-! ## The two halves of a callback -/

/-- A timer that fires is armed no more. -/
def disarm (m : TTLMap V) (timer : ExpiryTimer V) : TTLMap V :=
  { m with timers := m.timers.filter (·.id ≠ timer.id) }

/-- `delete this.map[key]`. -/
def drop (m : TTLMap V) (key : String) : TTLMap V :=
  { m with map := Function.update m.map key none }

/-- A callback in which nothing else happens is both halves. -/
lemma fire_eq (m : TTLMap V) (timer) : (m.fire timer).2 = (m.disarm timer).drop timer.key := rfl

/-- Dropping a key leaves the other keys. -/
lemma drop_map (m : TTLMap V) (key k) : (m.drop key).map k = if k = key then none else m.map k := by
  simp only [drop, Function.update_apply]

/-! ## Runs -/

/-- The delay that `setTimeout` of Node takes: one millisecond where the given one is less, or more
    than `TIMEOUT_MAX`. -/
def setTimeoutDelay (delay : ℤ) : ℤ := if 1 ≤ delay ∧ delay ≤ 2147483647 then delay else 1

/-- A map, when its timers are due, the last time the clock was read, and the timer whose callback
    is running. -/
structure Clocked (V : Type*) where
  map : TTLMap V
  due : ℕ → ℤ
  now : ℤ
  firing : Option (ExpiryTimer V)

/-- A map that was just made. -/
def Clocked.start (now : ℤ) : Clocked V := ⟨empty, fun _ => now, now, none⟩

/-- What happens to a map. A `set` comes with the timeout it starts, a `get` with its answer. -/
inductive Event (V : Type*) where
  | set (timeoutId : ℕ) (key : String) (value : V) (ttl : ℤ) (onExpiry : Bool) (time : ℤ)
  | get (key : String) (time : ℤ) (answer : Option V)
  | delete (key : String) (time : ℤ)
  | fire (timer : ExpiryTimer V) (time : ℤ)
  | fired (time : ℤ)

/-- Calls come when no callback runs, or from an `onExpiry`. -/
def Clocked.Free (s : Clocked V) : Prop := ∀ timer, s.firing = some timer → timer.onExpiry

/-- Calls can come when no callback runs. -/
lemma Clocked.free_of_none {s : Clocked V} (h : s.firing = none) : s.Free := by
  intro timer htimer
  rw [h] at htimer
  cases htimer

/-- One event. -/
inductive Step : Clocked V → Event V → Clocked V → Prop
  | set {s key value ttl onExpiry t} : s.Free → s.now ≤ t →
      Step s (.set s.map.nextId key value ttl onExpiry t)
        { s with
          map := s.map.set key value ttl onExpiry t
          due := Function.update s.due s.map.nextId (t + setTimeoutDelay ttl)
          now := t }
  | get {s key t} : s.Free → s.now ≤ t →
      Step s (.get key t (s.map.get key t).1) { s with map := (s.map.get key t).2, now := t }
  | delete {s key t} : s.Free → s.now ≤ t →
      Step s (.delete key t) { s with map := s.map.delete key, now := t }
  | fire {s timer t} : s.firing = none → timer ∈ s.map.timers → s.due timer.id ≤ t → s.now ≤ t →
      Step s (.fire timer t) { s with map := s.map.disarm timer, now := t, firing := some timer }
  | fired {s timer t} : s.firing = some timer → s.now ≤ t →
      Step s (.fired t) { s with map := s.map.drop timer.key, now := t, firing := none }

/-- A `set` or `delete` of the key. -/
def Event.Changes (k : String) : Event V → Prop
  | .set _ key _ _ _ _ => key = k
  | .delete key _ => key = k
  | _ => False

/-- The last `set` or `delete` of the key was this `set`. -/
def LastSet (es : List (Event V)) (k : String) (value : V) (ttl t0 : ℤ) : Prop :=
  ∃ pre post timeoutId onExpiry, es = pre ++ .set timeoutId k value ttl onExpiry t0 :: post ∧
    ∀ e ∈ post, ¬ e.Changes k

/-- The `set` that started the timer is among the events. -/
def Started (es : List (Event V)) (timer : ExpiryTimer V) : Prop :=
  ∃ value ttl onExpiry t0, .set timer.id timer.key value ttl onExpiry t0 ∈ es

/-- The key of the timer was deleted after the `set` that started it. -/
def DeletedSince (es : List (Event V)) (timer : ExpiryTimer V) : Prop :=
  ∃ pre post t, es = pre ++ .delete timer.key t :: post ∧ Started pre timer

/-- What an event has to meet. The key `__proto__` is not that of an entry: a `set` of it changes
    the prototype of the object behind the map. -/
def Clocked.Fits (s : Clocked V) : Event V → Prop
  | .set _ key _ _ _ _ => key ≠ "__proto__"
  | .delete key _ => ∀ timer ∈ s.map.timers, timer.key = key → timer.onExpiry →
      ∃ entry, s.map.map key = some entry ∧ entry.timeoutId = timer.id
  | .fired t => ∀ timer, s.firing = some timer → ∀ entry, s.map.map timer.key = some entry →
      entry.expiry ≤ t
  | _ => True

/-! ## One event more -/

/-- The last `set` after one event more. -/
lemma lastSet_concat {es : List (Event V)} {e k v ttl t0} :
    LastSet (es ++ [e]) k v ttl t0 ↔ (∃ timeoutId onExpiry, e = .set timeoutId k v ttl onExpiry t0) ∨
      ¬ e.Changes k ∧ LastSet es k v ttl t0 := by
  constructor
  · rintro ⟨pre, post, id, onExpiry, h, hpost⟩
    rcases List.eq_nil_or_concat post with rfl | ⟨post, last, rfl⟩
    · obtain ⟨_, he⟩ := List.append_inj' h rfl
      exact .inl ⟨id, onExpiry, (List.cons.inj he).1⟩
    · rw [List.concat_eq_append] at h hpost
      rw [← List.cons_append, ← List.append_assoc] at h
      obtain ⟨rfl, he⟩ := List.append_inj' h rfl
      rw [(List.cons.inj he).1]
      refine .inr ⟨hpost last (List.mem_append_right _ (List.mem_singleton_self _)), pre, post, id,
        onExpiry, rfl, ?_⟩
      intro e he
      exact hpost e (List.mem_append_left _ he)
  · rintro (⟨id, onExpiry, rfl⟩ | ⟨he, pre, post, id, onExpiry, rfl, hpost⟩)
    · exact ⟨es, [], id, onExpiry, rfl, fun e he => absurd he List.not_mem_nil⟩
    · refine ⟨pre, post ++ [e], id, onExpiry, by simp, ?_⟩
      intro e' he'
      rcases List.mem_append.mp he' with he' | he'
      · exact hpost e' he'
      · rw [List.mem_singleton.mp he']
        exact he

/-- Deletions after one event more. -/
lemma deletedSince_concat {es : List (Event V)} {e timer} :
    DeletedSince (es ++ [e]) timer ↔
      DeletedSince es timer ∨ (∃ t, e = .delete timer.key t) ∧ Started es timer := by
  constructor
  · rintro ⟨pre, post, t, h, hset⟩
    rcases List.eq_nil_or_concat post with rfl | ⟨post, last, rfl⟩
    · obtain ⟨rfl, he⟩ := List.append_inj' h rfl
      exact .inr ⟨⟨t, (List.cons.inj he).1⟩, hset⟩
    · rw [List.concat_eq_append] at h
      rw [← List.cons_append, ← List.append_assoc] at h
      obtain ⟨rfl, _⟩ := List.append_inj' h rfl
      exact .inl ⟨pre, post, t, rfl, hset⟩
  · rintro (⟨pre, post, t, rfl, hset⟩ | ⟨⟨t, rfl⟩, hset⟩)
    · exact ⟨pre, post ++ [e], t, by simp, hset⟩
    · exact ⟨es, [], t, rfl, hset⟩

/-- A started timer stays so. -/
lemma Started.concat {es : List (Event V)} {timer} (h : Started es timer) (e) :
    Started (es ++ [e]) timer := by
  obtain ⟨value, ttl, onExpiry, t0, h⟩ := h
  exact ⟨value, ttl, onExpiry, t0, List.mem_append_left _ h⟩

/-- What a `get` leaves was there. -/
lemma map_of_get_map {m : TTLMap V} {key now k entry} (h : (m.get key now).2.map k = some entry) :
    m.map k = some entry := by
  rcases get_map m key now k with hsame | ⟨_, hnone⟩
  · rw [← hsame, h]
  · rw [hnone] at h
    cases h

/-- A `get` leaves what has not expired. -/
lemma get_map_of_unexpired {m : TTLMap V} {key now k entry} (h : m.map k = some entry)
    (hexpiry : entry.expiry > now) : (m.get key now).2.map k = some entry := by
  by_cases hk : k = key
  · subst hk
    simp only [get, h, if_pos hexpiry]
  · rcases get_map m key now k with hsame | ⟨he, _⟩
    · rw [hsame, h]
    · exact absurd he hk

/-- A `get` leaves the timers. -/
lemma get_timers (m : TTLMap V) (key now) :
    (m.get key now).2.timers = m.timers ∧ (m.get key now).2.nextId = m.nextId := by
  unfold get
  cases m.map key with
  | none => exact ⟨rfl, rfl⟩
  | some entry =>
    by_cases he : entry.expiry > now
    · simp only [if_pos he, and_self]
    · simp only [if_neg he, and_self]

/-- The timers that a `delete` leaves. -/
lemma mem_delete_timers {m : TTLMap V} {key timer} (h : timer ∈ (m.delete key).timers) :
    timer ∈ m.timers ∧ ∀ entry, m.map key = some entry → timer.id ≠ entry.timeoutId := by
  cases hm : m.map key with
  | none =>
    simp only [delete, hm] at h
    refine ⟨h, ?_⟩
    intro entry hentry
    cases hentry
  | some entry =>
    simp only [delete, hm, List.mem_filter, decide_eq_true_eq] at h
    refine ⟨h.1, ?_⟩
    intro entry' hentry
    cases hentry
    exact h.2

/-! ## The invariant -/

/-- The entries are those of the last `set`s, as far as these have not expired; the timers have been
    started by a `set`, and those with a callback not been deleted since. -/
structure Inv (es : List (Event V)) (s : Clocked V) : Prop where
  entries : ∀ {k entry}, s.map.map k = some entry →
    ∃ ttl t0, LastSet es k entry.value ttl t0 ∧ entry.expiry = t0 + ttl
  unexpired : ∀ {k v ttl t0}, LastSet es k v ttl t0 → s.now < t0 + ttl →
    ∃ entry, s.map.map k = some entry ∧ entry.value = v ∧ entry.expiry = t0 + ttl
  fresh : ∀ {timer}, Started es timer → timer.id < s.map.nextId
  started : ∀ {timer}, timer ∈ s.map.timers → Started es timer
  kept : ∀ {timer}, timer ∈ s.map.timers → timer.onExpiry → ¬ DeletedSince es timer

/-- A new map. -/
lemma inv_start (now : ℤ) : Inv [] (Clocked.start now : Clocked V) where
  entries := nofun
  unexpired := by
    rintro k v ttl t0 ⟨pre, post, _, _, h, _⟩
    cases pre <;> cases h
  fresh := by
    rintro timer ⟨_, _, _, _, h⟩
    cases h
  started := nofun
  kept := nofun

section
variable {es : List (Event V)} {s : Clocked V}

/-- A `set` keeps the invariant. -/
lemma inv_set (h : Inv es s) {key : String} {value : V} {ttl onExpiry t} (ht : s.now ≤ t) (due) :
    Inv (es ++ [.set s.map.nextId key value ttl onExpiry t])
      { s with map := s.map.set key value ttl onExpiry t, due := due, now := t } where
  entries := by
    intro k entry hk
    rw [set_map] at hk
    split at hk
    case isTrue e =>
      cases hk
      subst e
      exact ⟨ttl, t, lastSet_concat.mpr (.inl ⟨_, _, rfl⟩), rfl⟩
    case isFalse hne =>
      obtain ⟨ttl', t0, hlast, hexpiry⟩ := h.entries hk
      exact ⟨ttl', t0, lastSet_concat.mpr (.inr ⟨Ne.symm hne, hlast⟩), hexpiry⟩
  unexpired := by
    intro k v ttl' t0 hlast hlt
    rw [set_map]
    rcases lastSet_concat.mp hlast with ⟨_, _, ⟨⟩⟩ | ⟨hne, hlast⟩
    · rw [if_pos rfl]
      exact ⟨_, rfl, rfl, rfl⟩
    · rw [if_neg (Ne.symm hne)]
      exact h.unexpired hlast (Int.lt_of_le_of_lt ht hlt)
  fresh := by
    rintro timer ⟨v, ttl', onExpiry', t0, hmem⟩
    rcases List.mem_append.mp hmem with hmem | hmem
    · exact Nat.lt_succ_of_lt (h.fresh ⟨v, ttl', onExpiry', t0, hmem⟩)
    · have hid := (Event.set.inj (List.mem_singleton.mp hmem)).1
      rw [hid]
      exact Nat.lt_succ_self _
  started := by
    intro timer hmem
    rcases List.mem_cons.mp hmem with rfl | hmem
    · exact ⟨value, ttl, onExpiry, t, List.mem_append_right _ (List.mem_singleton_self _)⟩
    · exact (h.started hmem).concat _
  kept := by
    intro timer hmem honExpiry hdeleted
    rcases deletedSince_concat.mp hdeleted with hdeleted | ⟨⟨_, e⟩, _⟩
    · rcases List.mem_cons.mp hmem with rfl | hmem
      · -- no `set` before has started the new timer
        obtain ⟨pre, post, t', rfl, v, ttl', onExpiry', t0, hset⟩ := hdeleted
        exact absurd (h.fresh ⟨v, ttl', onExpiry', t0, List.mem_append_left _ hset⟩) (Nat.lt_irrefl _)
      · exact h.kept hmem honExpiry hdeleted
    · cases e

/-- What neither changes the last `set`s nor deletes keeps the invariant, as long as it drops
    expired entries only. -/
lemma inv_other (h : Inv es s) {e : Event V} {s' : Clocked V} (hnow : s.now ≤ s'.now)
    (hchanges : ∀ k, ¬ e.Changes k)
    (hentries : ∀ {k entry}, s'.map.map k = some entry → s.map.map k = some entry)
    (hunexpired : ∀ {k entry}, s.map.map k = some entry → entry.expiry > s'.now →
      s'.map.map k = some entry)
    (htimers : ∀ {timer}, timer ∈ s'.map.timers → timer ∈ s.map.timers)
    (hid : s'.map.nextId = s.map.nextId) : Inv (es ++ [e]) s' where
  entries := by
    intro k entry hk
    obtain ⟨ttl, t0, hlast, hexpiry⟩ := h.entries (hentries hk)
    exact ⟨ttl, t0, lastSet_concat.mpr (.inr ⟨hchanges k, hlast⟩), hexpiry⟩
  unexpired := by
    intro k v ttl t0 hlast hlt
    rcases lastSet_concat.mp hlast with ⟨_, _, rfl⟩ | ⟨_, hlast⟩
    · exact absurd rfl (hchanges k)
    · obtain ⟨entry, hentry, hv, hexpiry⟩ := h.unexpired hlast (Int.lt_of_le_of_lt hnow hlt)
      exact ⟨entry, hunexpired hentry (hexpiry ▸ hlt), hv, hexpiry⟩
  fresh := by
    rintro timer ⟨v, ttl, onExpiry, t0, hmem⟩
    rw [hid]
    rcases List.mem_append.mp hmem with hmem | hmem
    · exact h.fresh ⟨v, ttl, onExpiry, t0, hmem⟩
    · rw [← List.mem_singleton.mp hmem] at hchanges
      exact absurd rfl (hchanges timer.key)
  started hmem := (h.started (htimers hmem)).concat _
  kept := by
    intro timer hmem honExpiry hdeleted
    rcases deletedSince_concat.mp hdeleted with hdeleted | ⟨⟨_, rfl⟩, _⟩
    · exact h.kept (htimers hmem) honExpiry hdeleted
    · exact hchanges timer.key rfl

/-- A `delete` that clears all callbacks of its key keeps the invariant. -/
lemma inv_delete (h : Inv es s) {key : String} {t} (ht : s.now ≤ t) (hfits : s.Fits (.delete key t)) :
    Inv (es ++ [.delete key t]) { s with map := s.map.delete key, now := t } where
  entries := by
    intro k entry hk
    rw [delete_map] at hk
    split at hk
    case isTrue => cases hk
    case isFalse hne =>
      obtain ⟨ttl, t0, hlast, hexpiry⟩ := h.entries hk
      exact ⟨ttl, t0, lastSet_concat.mpr (.inr ⟨Ne.symm hne, hlast⟩), hexpiry⟩
  unexpired := by
    intro k v ttl t0 hlast hlt
    rcases lastSet_concat.mp hlast with ⟨_, _, e⟩ | ⟨hne, hlast⟩
    · cases e
    · rw [delete_map, if_neg (Ne.symm hne)]
      exact h.unexpired hlast (Int.lt_of_le_of_lt ht hlt)
  fresh := by
    rintro timer ⟨v, ttl, onExpiry, t0, hmem⟩
    rcases List.mem_append.mp hmem with hmem | hmem
    · exact h.fresh ⟨v, ttl, onExpiry, t0, hmem⟩
    · cases List.mem_singleton.mp hmem
  started hmem := (h.started (mem_delete_timers hmem).1).concat _
  kept := by
    intro timer hmem honExpiry hdeleted
    obtain ⟨hmem, hcleared⟩ := mem_delete_timers hmem
    rcases deletedSince_concat.mp hdeleted with hdeleted | ⟨⟨_, e⟩, _⟩
    · exact h.kept hmem honExpiry hdeleted
    · -- the entry has the timer, which is cleared
      have hkey : key = timer.key := by
        cases e
        rfl
      obtain ⟨entry, hentry, hid⟩ := hfits timer hmem hkey.symm honExpiry
      exact hcleared entry hentry hid.symm

/-- Every event that fits keeps the invariant. -/
lemma inv_step (h : Inv es s) {e : Event V} {s' : Clocked V} (hstep : Step s e s') (hfits : s.Fits e) :
    Inv (es ++ [e]) s' := by
  cases hstep with
  | set _ ht => exact inv_set h ht _
  | @get key t _ ht =>
    obtain ⟨htimers, hid⟩ := get_timers s.map key t
    exact inv_other h ht (fun _ => id) map_of_get_map get_map_of_unexpired (htimers ▸ id) hid
  | delete _ ht => exact inv_delete h ht hfits
  | fire _ _ _ ht =>
    exact inv_other h ht (fun _ => id) id (fun hk _ => hk) (fun hmem => (List.mem_filter.mp hmem).1) rfl
  | @fired timer t hfiring ht =>
    refine inv_other h ht (fun _ => id) ?_ ?_ id rfl
    · intro k entry hk
      rw [drop_map] at hk
      split at hk
      case isTrue => cases hk
      case isFalse => exact hk
    · intro k entry hk hexpiry
      rw [drop_map]
      split
      case isTrue e =>
        rw [e] at hk
        exact absurd hexpiry (Int.not_lt.mpr (hfits timer hfiring entry hk))
      case isFalse => exact hk

/-- The invariant after a run of events that fit. -/
lemma inv_run {now : ℤ} (r : Run (fun s e s' => Step s e s' ∧ s.Fits e) (Clocked.start now) es s) :
    Inv es s :=
  r.invariant_along (inv_start now) fun h hstep => inv_step h hstep.1 hstep.2

/-- Where the invariant holds a `get` answers by the last `set` or `delete`. -/
lemma Inv.get_eq_some (h : Inv es s) {k t v} (ht : s.now ≤ t) :
    (s.map.get k t).1 = some v ↔ ∃ ttl t0, LastSet es k v ttl t0 ∧ t < t0 + ttl := by
  rw [TTLMap.get_eq_some]
  constructor
  · rintro ⟨entry, hentry, hlt, rfl⟩
    obtain ⟨ttl, t0, hlast, hexpiry⟩ := h.entries hentry
    exact ⟨ttl, t0, hlast, hexpiry ▸ hlt⟩
  · rintro ⟨ttl, t0, hlast, hlt⟩
    obtain ⟨entry, hentry, hv, hexpiry⟩ := h.unexpired hlast (Int.lt_of_le_of_lt ht hlt)
    exact ⟨entry, hentry, hexpiry ▸ hlt, hv⟩

/-- In every run of events that fit, a `get` at any time answers the value of the last `set` or
    `delete` of the key, if that is a `set` that has not expired, and none if not; and no `onExpiry`
    is called of a `set` after which the key was deleted. -/
theorem get_lastSet {now : ℤ}
    (r : Run (fun s e s' => Step s e s' ∧ s.Fits e) (Clocked.start now) es s) :
    (∀ k t answer s', Step s (.get k t answer) s' → ∀ v,
      answer = some v ↔ ∃ ttl t0, LastSet es k v ttl t0 ∧ t < t0 + ttl) ∧
    ∀ timer t s', Step s (.fire timer t) s' → timer.onExpiry → ¬ DeletedSince es timer := by
  have h := inv_run r
  refine ⟨?_, ?_⟩
  · intro k t answer s' hstep v
    cases hstep with
    | get _ ht => exact h.get_eq_some ht
  · intro timer t s' hstep honExpiry
    cases hstep with
    | fire _ hmem _ _ => exact h.kept hmem honExpiry

/-- A timer that deletes an entry that has not expired makes a `get` answer none. -/
theorem fired_breaks {now : ℤ}
    (r : Run (fun s e s' => Step s e s' ∧ s.Fits e) (Clocked.start now) es s) {t : ℤ} {s' : Clocked V}
    (hstep : Step s (.fired t) s') (hfits : ¬ s.Fits (.fired t)) :
    ∃ k v ttl t0, LastSet (es ++ [.fired t]) k v ttl t0 ∧ t < t0 + ttl ∧ (s'.map.get k t).1 = none := by
  simp only [Clocked.Fits, not_forall] at hfits
  obtain ⟨timer, hfiring, entry, hentry, hlt⟩ := hfits
  obtain ⟨ttl, t0, hlast, hexpiry⟩ := (inv_run r).entries hentry
  refine ⟨timer.key, entry.value, ttl, t0, lastSet_concat.mpr (.inr ⟨id, hlast⟩),
    hexpiry ▸ Int.not_le.mp hlt, ?_⟩
  cases hstep with
  | fired hfiring' _ =>
    cases hfiring.symm.trans hfiring'
    have hnone : (s.map.drop timer.key).map timer.key = none := by rw [drop_map, if_pos rfl]
    simp only [get, hnone]

/-- A `delete` that leaves a callback of its key armed lets it be called after. -/
theorem delete_breaks {now : ℤ}
    (r : Run (fun s e s' => Step s e s' ∧ s.Fits e) (Clocked.start now) es s) {key : String} {t : ℤ}
    {s' : Clocked V} (hstep : Step s (.delete key t) s') (hfits : ¬ s.Fits (.delete key t)) :
    ∃ timer ∈ s'.map.timers, timer.onExpiry ∧ DeletedSince (es ++ [.delete key t]) timer := by
  simp only [Clocked.Fits, not_forall, not_exists, not_and] at hfits
  obtain ⟨timer, hmem, hkey, honExpiry, hother⟩ := hfits
  refine ⟨timer, ?_, honExpiry, deletedSince_concat.mpr (.inr ⟨⟨t, by rw [hkey]⟩, (inv_run r).started hmem⟩)⟩
  cases hstep with
  | delete _ _ =>
    cases hm : s.map.map key with
    | none =>
      simp only [delete, hm]
      exact hmem
    | some entry =>
      simp only [delete, hm, List.mem_filter, decide_eq_true_eq]
      exact ⟨hmem, Ne.symm (hother entry hm)⟩

end

/-- An entry that is set and not expired is got. -/
theorem get_lastSet_unexpired : ∃ ttl t0,
    LastSet [.set 0 "a" 7 100 true 0, .get "a" 20 (some 7)] "a" 7 ttl t0 ∧ (50 : ℤ) < t0 + ttl := by
  have hkey : "a" ≠ "__proto__" := by decide
  have r : Run (fun s e s' => Step s e s' ∧ s.Fits e) (Clocked.start 0 : Clocked ℕ)
      [.set 0 "a" 7 100 true 0, .get "a" 20 (some 7)] _ :=
    (Run.single ⟨.set (Clocked.free_of_none rfl) (by decide), hkey⟩).tail
      ⟨.get (Clocked.free_of_none rfl) (by decide), trivial⟩
  exact ((get_lastSet r).1 "a" 50 (some 7) _
    (.get (Clocked.free_of_none rfl) (by decide)) 7).mp rfl

/-- A `set` replaces an entry; the timer of the first deletes the second, which has not expired; and
    a `delete` of the second does not clear the timer of the first, which calls its `onExpiry`
    after. -/
theorem get_lastSet_fails :
    (∃ es s s', Run Step (Clocked.start 0 : Clocked ℕ) es s ∧ Step s (.get "a" 11 none) s' ∧
      LastSet es "a" 2 100 5 ∧ (11 : ℤ) < 5 + 100) ∧
    ∃ es s s', Run Step (Clocked.start 0 : Clocked ℕ) es s ∧
      Step s (.fire ⟨0, "a", 1, true⟩ 10) s' ∧ DeletedSince es (⟨0, "a", 1, true⟩ : ExpiryTimer ℕ) := by
  have r : Run Step (Clocked.start 0 : Clocked ℕ) [.set 0 "a" 1 10 true 0, .set 1 "a" 2 100 true 5] _ :=
    (Run.single (.set (Clocked.free_of_none rfl) (by decide))).tail
      (.set (Clocked.free_of_none rfl) (by decide))
  constructor
  · have r' : Run Step (Clocked.start 0 : Clocked ℕ) [.set 0 "a" 1 10 true 0, .set 1 "a" 2 100 true 5,
        .fire ⟨0, "a", 1, true⟩ 10, .fired 10] _ :=
      (r.tail (.fire rfl (.tail _ (.head _)) (by decide) (by decide))).tail (.fired rfl (by decide))
    refine ⟨_, _, _, r', .get (Clocked.free_of_none rfl) (by decide), ?_, by decide⟩
    exact ⟨[.set 0 "a" 1 10 true 0], _, 1, true, rfl, by simp [Event.Changes]⟩
  · have r' : Run Step (Clocked.start 0 : Clocked ℕ) [.set 0 "a" 1 10 true 0, .set 1 "a" 2 100 true 5,
        .delete "a" 6] _ := r.tail (.delete (Clocked.free_of_none rfl) (by decide))
    refine ⟨_, _, _, r', .fire rfl (.head _) (by decide) (by decide), ?_⟩
    exact ⟨[.set 0 "a" 1 10 true 0, .set 1 "a" 2 100 true 5], [], 6, rfl, 1, 10, true, 0, .head _⟩

end ShardusNet.Node.TTLMap
