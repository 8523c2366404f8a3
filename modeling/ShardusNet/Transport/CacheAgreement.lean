import ShardusNet.Transport.CacheHistory
import ShardusNet.Transport.Sender
/-!
# The two caches under a sender

`create_shardus_net` gives the sender an LRU cache or a `HashMap` of connections. As far as the
addresses of the sends have room in the LRU cache, nothing else of the sender shows which one it
has; where they have not, there is a run that shows it.

* `SameFor.run`: caches that give the same connections can be exchanged in a run of the sender.
* `sameFor_alike`: the two caches give the same connections while the addresses have room.
* `sameRuns_iff`: the senders with the two caches have the same runs, for the addresses of a
  set, exactly when its size is at most the capacity.
-/

namespace ShardusNet.Transport
open Wire Runs Recency

variable {L ε : Type*} {lru : LruCrate L}

/-! ## Caches in the place of each other -/

/-- Caches in this relation give the same connections for these addresses, and go on to. -/
structure SameFor (lru : LruCrate L) (addresses : Finset SocketAddr)
    (R : ConnectionCache L → ConnectionCache L → Prop) : Prop where
  getOrInsert : ∀ {x y}, R x y → ∀ {a}, a ∈ addresses → ∀ new,
    (x.getOrInsert lru a new).1 = (y.getOrInsert lru a new).1 ∧
      R (x.getOrInsert lru a new).2 (y.getOrInsert lru a new).2
  remove : ∀ {x y}, R x y → ∀ a, R (x.remove lru a).2 (y.remove lru a).2

/-- They do so the other way round. -/
lemma SameFor.flip {addresses} {R : ConnectionCache L → ConnectionCache L → Prop}
    (h : SameFor lru addresses R) : SameFor lru addresses fun x y => R y x where
  getOrInsert hyx _ ha new := ⟨((h.getOrInsert hyx ha new).1).symm, (h.getOrInsert hyx ha new).2⟩
  remove hyx a := h.remove hyx a

/-- The sends that have no task yet are to these addresses. -/
def Sender.SendsTo (addresses : Finset SocketAddr) (s : Sender L ε) : Prop :=
  ∀ q ∈ s.received.toList ++ s.sendChannel, q.address ∈ addresses

/-- A step of a sender is one of the sender with the other cache. -/
lemma SameFor.step {addresses} {R : ConnectionCache L → ConnectionCache L → Prop}
    (h : SameFor lru addresses R) {s s' : Sender L ε} {e} (hstep : Step lru s e s')
    (hsends : s.SendsTo addresses) (hsend : ∀ q, e = .send q → q.address ∈ addresses) {y}
    (hy : R s.connections y) :
    s'.SendsTo addresses ∧ ∃ y', R s'.connections y' ∧
      Step lru { s with connections := y } e { s' with connections := y' } := by
  cases hstep with
  | @send q hnew =>
    refine ⟨?_, y, hy, .send hnew⟩
    intro q' hq'
    rw [Sender.send, ← List.append_assoc, List.mem_append, List.mem_singleton] at hq'
    rcases hq' with hq' | rfl
    · exact hsends q' hq'
    · exact hsend q' rfl
  | evictSocket => exact ⟨hsends, y, hy, .evictSocket⟩
  | recvSend hchannel hfree =>
    refine ⟨?_, y, hy, ?_⟩
    · rw [Sender.SendsTo, hchannel, hfree] at hsends
      exact hsends
    · exact .recvSend (s := { s with connections := y }) hchannel hfree
  | @spawn q hreceived =>
    have hq : q.address ∈ addresses := by
      apply hsends q
      rw [hreceived]
      exact List.mem_cons_self
    obtain ⟨hconnection, hcaches⟩ := h.getOrInsert hy hq s.made
    refine ⟨fun q' hq' => hsends q' (List.mem_append_right _ hq'), _, hcaches, ?_⟩
    have hspawn : Step lru { s with connections := y } .spawn
        (Sender.spawn lru { s with connections := y } q) := .spawn hreceived
    simp only [Sender.spawn, hconnection] at hspawn ⊢
    exact hspawn
  | recvEvict hchannel hfree =>
    exact ⟨hsends, y, hy, .recvEvict (s := { s with connections := y }) hchannel hfree⟩
  | @remove address hevicting =>
    refine ⟨hsends, (y.remove lru address).2, h.remove hy address, ?_⟩
    exact .remove (s := { s with connections := y }) hevicting
  | lock htask hwaiting hconn hfree =>
    exact ⟨hsends, y, hy, .lock (s := { s with connections := y }) htask hwaiting hconn hfree⟩
  | io htask hstage hrunning hconn hcut =>
    refine ⟨hsends, y, hy, ?_⟩
    exact .io (s := { s with connections := y }) htask hstage hrunning hconn hcut
  | complete htask hdone =>
    exact ⟨hsends, y, hy, .complete (s := { s with connections := y }) htask hdone⟩

/-- A run of a sender is one of the sender with the other cache. -/
lemma SameFor.run {addresses} {R : ConnectionCache L → ConnectionCache L → Prop}
    (h : SameFor lru addresses R) {x y} (hxy : R x y) {es : List (Event ε)} {s}
    (r : Run (Step lru) (.new x) es s) (hsends : ∀ q, .send q ∈ es → q.address ∈ addresses) :
    ∃ y', Run (Step lru) (.new y) es { s with connections := y' } := by
  have hsim : ∃ t, Run (Step lru) (Sender.new y) es t ∧ s.SendsTo addresses ∧
      ∃ y', R s.connections y' ∧ t = { s with connections := y' } := by
    apply r.simulate
    · exact ⟨List.forall_mem_nil _, y, hxy, rfl⟩
    · rintro s _ e s' he ⟨hs, y', hy', rfl⟩ hstep
      obtain ⟨hs', y'', hy'', hstep'⟩ := h.step hstep hs (fun q hq => hsends q (hq ▸ he)) hy'
      exact ⟨_, hstep', hs', y'', hy'', rfl⟩
  obtain ⟨_, r', _, y', _, rfl⟩ := hsim
  exact ⟨y', r'⟩

/-! ## The addresses have room -/

variable {capacity : L → ℕ+} {entries : L → List (SocketAddr × ℕ)} {c : ℕ+}
  {addresses : Finset SocketAddr}

/-- An LRU cache of this capacity and a `HashMap` with the same connections, which are for some of
    these addresses. -/
def Alike (capacity : L → ℕ+) (entries : L → List (SocketAddr × ℕ)) (c : ℕ+)
    (addresses : Finset SocketAddr) (x y : ConnectionCache L) : Prop :=
  ∃ l m, x = .lruCache l ∧ y = .hashMap m ∧ capacity l = c ∧ Sound c (entries l) ∧
    (keys (entries l)).toFinset ⊆ addresses ∧ ∀ a, lookup (entries l) a = m a

/-- New caches are. -/
lemma alike_createConnections (h : lru.Documented capacity entries) :
    Alike capacity entries c addresses (createConnections lru true c)
      (createConnections lru false c) := by
  refine ⟨lru.new c, fun _ => none, rfl, rfl, (h.new c).1, ?_, ?_, ?_⟩
  · rw [(h.new c).2]
    exact ⟨List.nodup_nil, Nat.zero_le _⟩
  · rw [(h.new c).2]
    exact Finset.empty_subset _
  · intro a
    rw [(h.new c).2]
    rfl

/-- Where the addresses have room, the two caches give the same connections. -/
lemma sameFor_alike (h : lru.Documented capacity entries) (hroom : addresses.card ≤ c) :
    SameFor lru addresses (Alike capacity entries c addresses) where
  getOrInsert := by
    rintro _ _ ⟨l, m, rfl, rfl, hc, hsound, hkeys, hlookup⟩ a ha new
    obtain ⟨hanswer, l', hl', hc', hentries⟩ := Session.getOrInsert_lruCache h
      (s := ⟨.lruCache l, List.replicate new a⟩) ⟨l, rfl, hc, rfl⟩ a
    obtain ⟨m', hm', hupdate, hanswer'⟩ := Session.call_hashMap lru
      (s := ⟨.hashMap m, List.replicate new a⟩) rfl (.request a)
    obtain ⟨value, e, hvalue⟩ := request_eq hsound a new
    simp only [List.length_replicate, e] at hanswer hentries hanswer' hupdate
    have hsame : value = (m a).getD new := by rw [hvalue, hlookup]
    have hinsert : (insert a (keys (entries l)).toFinset).card ≤ (c : ℕ) :=
      (Finset.card_le_card (Finset.insert_subset ha hkeys)).trans hroom
    obtain ⟨hkeys', hlookup'⟩ := lookup_put_of_room hsound hinsert value
    simp only [Session.getOrInsert, List.length_replicate] at hanswer hanswer' hl'
    simp only [Session.call, Session.getOrInsert, List.length_replicate] at hm'
    refine ⟨by rw [hanswer, hanswer', hsame], l', m', hl', hm', hc', ?_, ?_, ?_⟩
    · rw [hentries]
      exact sound_put hsound a value
    · rw [hentries, hkeys']
      exact Finset.insert_subset ha hkeys
    · intro b
      rw [hentries, hlookup', hupdate, Function.update_apply, hlookup, hsame]
  remove := by
    rintro _ _ ⟨l, m, rfl, rfl, hc, hsound, hkeys, hlookup⟩ a
    refine ⟨(lru.pop l a).2, _, rfl, rfl, (h.pop_capacity l a).trans hc, ?_, ?_, ?_⟩
    · rw [h.pop_entries]
      exact sound_without hsound a
    · rw [h.pop_entries]
      intro b hb
      apply hkeys
      rw [List.mem_toFinset] at hb ⊢
      exact (mem_keys_without.mp hb).1
    · intro b
      rw [h.pop_entries, lookup_without, Function.update_apply, hlookup]

/-! ## The addresses have no room -/

/-- The event of a sender decides its next state. -/
lemma Step.deterministic {s s' s'' : Sender L ε} {e} (h : Step lru s e s') (h' : Step lru s e s'') :
    s' = s'' := by
  cases h with
  | send hnew =>
    cases h'
    rfl
  | evictSocket =>
    cases h'
    rfl
  | recvSend hchannel hfree =>
    cases h' with
    | recvSend hchannel' hfree' =>
      cases hchannel.symm.trans hchannel'
      rfl
  | spawn hreceived =>
    cases h' with
    | spawn hreceived' =>
      cases hreceived.symm.trans hreceived'
      rfl
  | recvEvict hchannel hfree =>
    cases h' with
    | recvEvict hchannel' hfree' =>
      cases hchannel.symm.trans hchannel'
      rfl
  | remove hevicting =>
    cases h' with
    | remove hevicting' =>
      cases hevicting.symm.trans hevicting'
      rfl
  | lock htask hwaiting hconn hfree =>
    cases h' with
    | lock htask' hwaiting' hconn' hfree' =>
      cases htask.symm.trans htask'
      cases hconn.symm.trans hconn'
      rfl
  | io htask hstage hrunning hconn hcut =>
    cases h' with
    | io htask' hstage' hrunning' hconn' hcut' =>
      cases htask.symm.trans htask'
      cases hstage.symm.trans hstage'
      cases hconn.symm.trans hconn'
      rfl
  | complete htask hdone =>
    cases h' with
    | complete htask' hdone' =>
      cases htask.symm.trans htask'
      cases hdone.symm.trans hdone'
      rfl

/-- A sender and a session with the same cache give a send the same connection. -/
lemma Sender.spawn_session (lru : LruCrate L) {s : Sender L ε} (session : Session L)
    (hconnections : s.connections = session.connections) (hmade : s.made = session.made.length) (q) :
    (s.spawn lru q).connections = (session.getOrInsert lru q.address).2.connections ∧
      (s.spawn lru q).made = (session.getOrInsert lru q.address).2.made.length ∧
      (s.spawn lru q).tasks = Function.update s.tasks q.completeTx
        (some ⟨q, (session.getOrInsert lru q.address).1, none⟩) := by
  simp only [Sender.spawn, Session.getOrInsert, hconnections, hmade, true_and, and_true]
  split
  case isTrue => rw [List.length_append, List.length_singleton]
  case isFalse => rfl

/-- Sends of nothing to these addresses, each up to its task. -/
def asks (as : List SocketAddr) : List (Event ε) :=
  as.zipIdx.flatMap fun p => [.send ⟨p.1, [], p.2⟩, .recvSend, .spawn]

/-- The sender after these sends: each task has the connection that the cache gave. -/
structure Asked (lru : LruCrate L) (useLru : Bool) (c : ℕ+) (as : List SocketAddr)
    (s : Sender L ε) : Prop where
  sendChannel : s.sendChannel = []
  received : s.received = none
  spawned : ∀ q ∈ s.spawned, q.completeTx < as.length
  connections : s.connections = ((Session.start lru useLru c).run lru (as.map .request)).connections
  made : s.made = ((Session.start lru useLru c).run lru (as.map .request)).made.length
  length : ((Session.start lru useLru c).answers lru (as.map .request)).length = as.length
  answers : ∀ i, (s.tasks i).map (fun task => some task.connection) =
    ((Session.start lru useLru c).answers lru (as.map .request))[i]?

/-- One send more. -/
lemma Asked.concat {useLru c as} {s : Sender L ε} (h : Asked lru useLru c as s) (a) :
    ∃ s', Run (Step lru) s [.send ⟨a, [], as.length⟩, .recvSend, .spawn] s' ∧
      Asked lru useLru c (as ++ [a]) s' := by
  let q : QueuedSend := ⟨a, [], as.length⟩
  have hnew : q.completeTx ∉ s.queued.map QueuedSend.completeTx := by
    rw [Sender.queued, h.received, h.sendChannel, List.mem_map]
    rintro ⟨q', hq', e⟩
    rw [Option.toList_none, List.append_nil, List.append_nil] at hq'
    exact absurd (h.spawned q' hq') (Nat.not_lt.mpr (Nat.le_of_eq e.symm))
  have hsend : Step lru s (.send q) (s.send q) := .send hnew
  have hrecvSend : Step lru (s.send q) .recvSend ((s.send q).recvSend q []) := by
    refine .recvSend ?_ h.received
    rw [Sender.send, h.sendChannel]
    rfl
  refine ⟨((s.send q).recvSend q []).spawn lru q,
    ((Run.single hsend).append (.single hrecvSend)).append (.single (.spawn rfl)), ?_⟩
  obtain ⟨hconnections, hmade, htasks⟩ := Sender.spawn_session lru
    (s := (s.send q).recvSend q []) ((Session.start lru useLru c).run lru (as.map .request))
    h.connections h.made q
  have hrun : (Session.start lru useLru c).run lru ((as ++ [a]).map .request) =
      (((Session.start lru useLru c).run lru (as.map .request)).getOrInsert lru a).2 := by
    rw [List.map_append, List.map_singleton, Session.run_concat]
    rfl
  have hanswers : (Session.start lru useLru c).answers lru ((as ++ [a]).map .request) =
      (Session.start lru useLru c).answers lru (as.map .request) ++
        [some (((Session.start lru useLru c).run lru (as.map .request)).getOrInsert lru a).1] := by
    rw [List.map_append, List.map_singleton, Session.answers_concat]
    rfl
  exact {
    sendChannel := rfl
    received := rfl
    spawned := by
      intro q' hq'
      rw [List.length_append, List.length_singleton]
      rcases List.mem_append.mp hq' with hq' | hq'
      · exact (h.spawned q' hq').trans (Nat.lt_succ_self _)
      · cases List.mem_singleton.mp hq'
        exact Nat.lt_succ_self _
    connections := by rw [hrun, hconnections]
    made := by rw [hrun, hmade]
    length := by
      rw [hanswers, List.length_append, List.length_append, h.length]
      rfl
    answers := by
      intro i
      rw [hanswers, htasks, Function.update_apply]
      split
      case isTrue hi =>
        have hlast : i = ((Session.start lru useLru c).answers lru (as.map .request)).length :=
          hi.trans h.length.symm
        rw [hlast, List.getElem?_concat_length]
        rfl
      case isFalse hi =>
        refine (h.answers i).trans ?_
        rcases Nat.lt_or_gt_of_ne hi with hlt | hgt
        · rw [List.getElem?_append_left (h.length ▸ hlt)]
        · rw [List.getElem?_eq_none (h.length ▸ Nat.le_of_lt hgt), List.getElem?_eq_none]
          rw [List.length_append, h.length]
          exact hgt }

/-- A sender with either cache can do so. -/
lemma run_asks (lru : LruCrate L) (useLru c as) :
    ∃ s : Sender L ε, Run (Step lru) (.new (createConnections lru useLru c)) (asks as) s ∧
      Asked lru useLru c as s := by
  induction as using List.reverseRecOn with
  | nil =>
    refine ⟨_, .refl, ?_⟩
    exact {
      sendChannel := rfl
      received := rfl
      spawned := List.forall_mem_nil _
      connections := rfl
      made := rfl
      length := rfl
      answers := fun _ => rfl }
  | append_singleton as a ih =>
    obtain ⟨s, r, hs⟩ := ih
    obtain ⟨s', r', hs'⟩ := hs.concat a
    refine ⟨s', ?_, hs'⟩
    have happend : (asks (as ++ [a]) : List (Event ε)) =
        asks as ++ [.send ⟨a, [], as.length⟩, .recvSend, .spawn] := by
      rw [asks, List.zipIdx_append, List.flatMap_append, Nat.zero_add]
      rfl
    rw [happend]
    exact r.append r'

/-- Requests keep their addresses live. -/
lemma live_map_request (as : List SocketAddr) : live (as.map .request) = as.toFinset := by
  induction as using List.reverseRecOn with
  | nil => rfl
  | append_singleton as a ih =>
    rw [List.map_append, List.map_singleton, live_concat, ih, Call.live, List.toFinset_append,
      Finset.union_comm]
    rfl

/-- Where `c` other addresses are asked for between two sends to an address, the LRU cache gives two
    connections for it and the `HashMap` gives one. -/
lemma gets_of_full (h : lru.Documented capacity entries) {a} {as : List SocketAddr}
    (hnodup : (a :: as).Nodup) (hfull : as.length = c) :
    Session.gets lru true c ((a :: as).map .request) a ≠ Session.gets lru true c [] a ∧
      Session.gets lru false c ((a :: as).map .request) a = Session.gets lru false c [] a := by
  rw [List.nodup_cons] at hnodup
  have hrequest : Call.request a ∉ as.map Call.request := by
    intro hmem
    obtain ⟨b, hb, e⟩ := List.mem_map.mp hmem
    cases e
    exact hnodup.1 hb
  have hremove : Call.remove a ∉ as.map Call.request := by
    intro hmem
    obtain ⟨b, _, e⟩ := List.mem_map.mp hmem
    cases e
  have hkept : ¬ Kept c a (as.map .request) := by
    intro hkept
    have hlt := hkept.2 _ (List.prefix_refl _)
    rw [live_map_request, Finset.erase_eq_of_notMem (by rw [List.mem_toFinset]; exact hnodup.1),
      List.toFinset_card_of_nodup hnodup.2, hfull] at hlt
    exact Nat.lt_irrefl _ hlt
  refine ⟨?_, ?_⟩
  · intro e
    exact hkept ((Session.gets_iff h (Session.find_lruCache h c [] hrequest)).1.mp e)
  · exact (Session.gets_iff h (Session.find_hashMap c [] hrequest)).1.mpr hremove

/-- Two senders, one with each cache, are not the same after sends to more addresses than the LRU
    cache has room for, and to the first of them again. -/
lemma runs_of_full (h : lru.Documented capacity entries) {a} {as : List SocketAddr}
    (hnodup : (a :: as).Nodup) (hfull : as.length = c) {s : Sender L ε} {x y}
    (r : Run (Step lru) (.new (createConnections lru true c)) (asks (a :: as ++ [a]))
      { s with connections := x })
    (r' : Run (Step lru) (.new (createConnections lru false c)) (asks (a :: as ++ [a]))
      { s with connections := y }) : False := by
  have htasks : ∀ (useLru : Bool) z, Run (Step lru) (.new (createConnections lru useLru c))
      (asks (a :: as ++ [a])) { s with connections := z } →
      (s.tasks 0).map (fun task => some task.connection) =
          some (some (Session.gets lru useLru c [] a)) ∧
        (s.tasks (a :: as).length).map (fun task => some task.connection) =
          some (some (Session.gets lru useLru c ((a :: as).map .request) a)) := by
    intro useLru z r
    obtain ⟨_, r₀, hasked⟩ := @run_asks _ ε lru useLru c (a :: as ++ [a])
    obtain ⟨_, _, hbefore⟩ := @run_asks _ ε lru useLru c (a :: as)
    obtain rfl := r₀.deterministic r Step.deterministic
    refine ⟨hasked.answers 0, ?_⟩
    refine (hasked.answers _).trans ?_
    rw [List.map_append, List.map_singleton, Session.answers_concat, ← hbefore.length,
      List.getElem?_concat_length]
    rfl
  obtain ⟨hne, heq⟩ := gets_of_full h hnodup hfull
  obtain ⟨hfirst, hlast⟩ := htasks true x r
  obtain ⟨hfirst', hlast'⟩ := htasks false y r'
  have hfirsts := Option.some.inj (Option.some.inj (hfirst.symm.trans hfirst'))
  have hlasts := Option.some.inj (Option.some.inj (hlast.symm.trans hlast'))
  exact hne (hlasts.trans (heq.trans hfirsts.symm))

/-- The sends of `asks` are to its addresses. -/
lemma mem_asks {as : List SocketAddr} {q} (hq : Event.send q ∈ (asks as : List (Event ε))) :
    q.address ∈ as := by
  obtain ⟨⟨a, i⟩, hmem, hq⟩ := List.mem_flatMap.mp hq
  rw [List.mem_cons, List.mem_cons, List.mem_singleton] at hq
  rcases hq with e | e | e
  · cases e
    exact List.fst_mem_of_mem_zipIdx hmem
  · cases e
  · cases e

/-- For sends to these addresses, the senders with the two caches have the same runs, and are in the
    same states but for their caches. -/
def SameRuns (ε : Type*) (lru : LruCrate L) (c : ℕ+) (addresses : Finset SocketAddr) : Prop :=
  ∀ (es : List (Event ε)) (s : Sender L ε), (∀ q, .send q ∈ es → q.address ∈ addresses) →
    ((∃ x, Run (Step lru) (.new (createConnections lru true c)) es { s with connections := x }) ↔
      ∃ y, Run (Step lru) (.new (createConnections lru false c)) es { s with connections := y })

/-- They have the same runs where the addresses have room in the LRU cache. -/
lemma sameRuns_of_room (h : lru.Documented capacity entries) (hroom : addresses.card ≤ c) :
    SameRuns ε lru c addresses := by
  intro es s hsends
  constructor
  · rintro ⟨x, r⟩
    obtain ⟨y, r'⟩ := (sameFor_alike h hroom).run (alike_createConnections h) r hsends
    exact ⟨y, r'⟩
  · rintro ⟨y, r⟩
    obtain ⟨x, r'⟩ := (sameFor_alike h hroom).flip.run (alike_createConnections h) r hsends
    exact ⟨x, r'⟩

/-- For sends to the addresses of a set, the senders with the two caches have the same runs if and
    only if the set has no more addresses than the LRU cache has room for. -/
theorem sameRuns_iff (h : lru.Documented capacity entries) (c : ℕ+) (addresses : Finset SocketAddr) :
    SameRuns ε lru c addresses ↔ addresses.card ≤ c := by
  refine ⟨?_, sameRuns_of_room h⟩
  intro hsame
  by_contra hfull
  rw [Nat.not_le, ← Finset.length_toList] at hfull
  cases hlist : addresses.toList with
  | nil =>
    rw [hlist] at hfull
    cases hfull
  | cons a rest =>
    rw [hlist, List.length_cons] at hfull
    have hsub : (a :: rest.take c).Sublist (a :: rest) := (List.take_sublist _ _).cons_cons a
    have hnodup : (a :: rest.take c).Nodup := hsub.nodup (hlist ▸ addresses.nodup_toList)
    have hlength : (rest.take c).length = c := List.length_take_of_le (Nat.le_of_lt_succ hfull)
    obtain ⟨s, r, _⟩ := @run_asks _ ε lru true c (a :: rest.take c ++ [a])
    have hsends : ∀ q, Event.send q ∈ (asks (a :: rest.take c ++ [a]) : List (Event ε)) →
        q.address ∈ addresses := by
      intro q hq
      rw [← Finset.mem_toList, hlist]
      rcases List.mem_append.mp (mem_asks hq) with hq | hq
      · exact hsub.subset hq
      · rw [List.mem_singleton.mp hq]
        exact List.mem_cons_self
    obtain ⟨y, r'⟩ := (hsame _ s hsends).mp ⟨s.connections, r⟩
    exact runs_of_full h hnodup hlength r r'

/-- With room for one connection, the senders have the same runs for sends to one address, and not
    for sends to two. -/
theorem sameRuns_iff_capacityOne :
    SameRuns Unit listLru 1 {sampleAddr} ∧
      ¬ SameRuns Unit listLru 1 {sampleAddr, Session.otherAddr} := by
  refine ⟨?_, ?_⟩
  · apply (sameRuns_iff documented_listLru 1 {sampleAddr}).mpr
    decide
  · have hfull : ¬ ({sampleAddr, Session.otherAddr} : Finset SocketAddr).card ≤ (1 : ℕ+) := by
      decide
    intro hsame
    exact hfull ((sameRuns_iff documented_listLru 1 {sampleAddr, Session.otherAddr}).mp hsame)

end ShardusNet.Transport
