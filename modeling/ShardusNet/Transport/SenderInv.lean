import ShardusNet.Transport.Sender
import Mathlib.Data.List.Nodup
/-!
# The invariant of the sender

What holds in every state a sender reaches, whatever fails and in whatever order its tasks take
their steps: which sends have a task and which have a result (`Queued`), where the sockets of
connections lead (`Connected`), what each task has written and who holds which lock (`Worked`).

`advance_spec` says what one operation of a send does to what it has written; everything else that
runs beside it is kept by `Net.Extends`.
-/

namespace ShardusNet.Transport
open Wire ByteCodec Framing Runs

variable {L ε : Type*}

/-! ## What a send has written -/

/-- The network grew: streams were opened, and writes made that are all of one kind. -/
def Net.Extends (net net' : Net) (P : Write → Prop) : Prop :=
  ∃ os ws, net'.opened = net.opened ++ os ∧ net'.written = net.written ++ ws ∧ ∀ w ∈ ws, P w

/-- A stream keeps its address. -/
lemma Net.Extends.opened {net net' : Net} {P} (h : net.Extends net' P) {stream : ℕ} {address}
    (hs : net.opened[stream]? = some address) : net'.opened[stream]? = some address := by
  obtain ⟨os, _, ho, _⟩ := h
  exact getElem?_of_prefix ⟨os, ho.symm⟩ hs

/-- The other sends have written what they had. -/
lemma Net.Extends.writesOf {net net' : Net} {c c'} (h : net.Extends net' fun w => w.writer = c)
    (hne : c' ≠ c) : net'.writesOf c' = net.writesOf c' := by
  obtain ⟨_, ws, _, hw, hP⟩ := h
  have hnone : ws.filter (·.writer = c') = [] := by
    rw [List.filter_eq_nil_iff]
    intro w hmem
    have hwriter : w.writer = c := hP w hmem
    simpa [hwriter] using hne.symm
  rw [Net.writesOf, hw, List.filter_append, hnone, List.append_nil, Net.writesOf]

/-- What the result of a send says: a whole write, and only one, or none; never two writes on a
    stream. -/
def Settled (net : Net) (c : ℕ) (result : SendResult ε) : Prop :=
  ((net.writesOf c).map Write.stream).Nodup ∧
  match result with
  | .ok () => ∃ w, (net.writesOf c).filter (·.Whole) = [w]
  | .error _ => ∀ w ∈ net.writesOf c, ¬ w.Whole

/-- What a send that holds the lock has written at each stage, and what is in the slot. -/
def Stage.Wrote (net : Net) (c : ℕ) (socket : Option ℕ) : Stage ε → Prop
  | .connect => socket = none ∧ net.writesOf c = []
  | .write stream => socket = some stream ∧ net.writesOf c = []
  | .reconnect => socket = none ∧ ∃ w, net.writesOf c = [w] ∧ ¬ w.Whole
  | .rewrite stream => socket = some stream ∧ ∃ w, net.writesOf c = [w] ∧ ¬ w.Whole ∧ w.stream ≠ stream
  | .done result => Settled net c result

/-- The result of a send is about its own writes. -/
lemma Settled.congr {net net' : Net} {c} {result : SendResult ε} (h : Settled net c result)
    (e : net'.writesOf c = net.writesOf c) : Settled net' c result := by
  unfold Settled at h ⊢
  rw [e]
  exact h

/-- What a send has written is about its own writes. -/
lemma Stage.Wrote.congr {net net' : Net} {c socket} {stage : Stage ε} (h : stage.Wrote net c socket)
    (e : net'.writesOf c = net.writesOf c) : stage.Wrote net' c socket := by
  cases stage with
  | connect => exact ⟨h.1, e.trans h.2⟩
  | write => exact ⟨h.1, e.trans h.2⟩
  | reconnect =>
    obtain ⟨hsocket, w, hone, hcut⟩ := h
    exact ⟨hsocket, w, e.trans hone, hcut⟩
  | rewrite =>
    obtain ⟨hsocket, w, hone, hcut⟩ := h
    exact ⟨hsocket, w, e.trans hone, hcut⟩
  | done => exact Settled.congr h e

/-- A write that failed is not whole. -/
lemma not_whole_of_cutsShort {io : Io ε} {data fault} (stream c) (hcut : Io.CutsShort io data)
    (h : io = .error fault) : ¬ (⟨stream, c, data, bytesPut io data⟩ : Write).Whole := by
  subst h
  exact Nat.ne_of_lt (hcut fault rfl)

/-- A write that succeeds is whole. -/
lemma whole_of_ok (stream c data u) :
    (⟨stream, c, data, bytesPut (.ok u : Io ε) data⟩ : Write).Whole := rfl

/-- A stream more leads to its address. -/
lemma opened_connect (net : Net) (address) :
    (net.connect address).opened[net.opened.length]? = some address := by
  rw [Net.connect_opened, List.getElem?_concat_length]

/-- A write of a send is one more of its writes. -/
lemma writesOf_write (net : Net) {w : Write} {c} (h : w.writer = c) :
    (net.write w).writesOf c = net.writesOf c ++ [w] := by
  rw [Net.write_writesOf, if_pos h]

/-- A write of a send: it is of the send's data, no more than a frame, on a stream to the
    address. -/
def Write.IsOf (w : Write) (net : Net) (c : ℕ) (data : Bytes) (address : SocketAddr) : Prop :=
  w.writer = c ∧ w.data = data ∧ w.put ≤ (frame data).length ∧ net.opened[w.stream]? = some address

/-- One write more on a stream that leads to the address of the connection. -/
lemma extends_write {net : Net} {address stream c data put}
    (hs : net.opened[stream]? = some address) (hput : put ≤ (frame data).length) :
    net.Extends (net.write ⟨stream, c, data, put⟩) fun w =>
      w.IsOf (net.write ⟨stream, c, data, put⟩) c data address := by
  refine ⟨[], [⟨stream, c, data, put⟩], (List.append_nil _).symm, rfl, ?_⟩
  intro w hw
  rw [List.mem_singleton.mp hw]
  exact ⟨rfl, rfl, hput, hs⟩

/-- One operation of a send: it has written what its next stage says, the slot leads to the address
    of the connection, and so do its writes. -/
lemma advance_spec {address : SocketAddr} {data : Bytes} {c : ℕ} {io : Io ε} {stage stage' : Stage ε}
    {socket socket' : Option ℕ} {net net' : Net}
    (h : stage.advance address data c io socket net = (stage', socket', net'))
    (hrunning : stage.returned = false) (hcut : Io.CutsShort io data)
    (hwrote : stage.Wrote net c socket)
    (hsocket : ∀ stream, socket = some stream → net.opened[stream]? = some address)
    (hwritten : ∀ w ∈ net.written, w.stream < net.opened.length) :
    stage'.Wrote net' c socket' ∧
      (∀ stream, socket' = some stream → net'.opened[stream]? = some address) ∧
      net.Extends net' fun w => w.IsOf net' c data address := by
  have hconnect : net.Extends (net.connect address) fun w =>
      w.IsOf (net.connect address) c data address :=
    ⟨[address], [], rfl, (List.append_nil _).symm, by simp⟩
  have hsame : net.Extends net fun w => w.IsOf net c data address :=
    ⟨[], [], (List.append_nil _).symm, (List.append_nil _).symm, by simp⟩
  cases stage with
  | connect =>
    obtain ⟨_, hnone⟩ := hwrote
    cases io with
    | ok =>
      cases h
      refine ⟨⟨rfl, hnone⟩, ?_, hconnect⟩
      rintro stream ⟨⟩
      exact opened_connect net address
    | error fault =>
      cases h
      refine ⟨?_, ?_, hsame⟩
      · simp [Stage.Wrote, Settled, hnone]
      · rintro stream ⟨⟩
  | write stream =>
    obtain ⟨rfl, hnone⟩ := hwrote
    have hs := hsocket stream rfl
    cases io with
    | ok =>
      cases h
      refine ⟨?_, hsocket, extends_write hs (bytesPut_le hcut)⟩
      simp [Stage.Wrote, Settled, writesOf_write, hnone, whole_of_ok]
    | error fault =>
      cases h
      refine ⟨⟨rfl, _, ?_, not_whole_of_cutsShort stream c hcut rfl⟩, ?_, extends_write hs (bytesPut_le hcut)⟩
      · rw [writesOf_write net rfl, hnone, List.nil_append]
      · rintro stream ⟨⟩
  | reconnect =>
    obtain ⟨_, w, hone, hcutShort⟩ := hwrote
    cases io with
    | ok =>
      cases h
      refine ⟨⟨rfl, w, hone, hcutShort, ?_⟩, ?_, hconnect⟩
      · have hmem : w ∈ net.writesOf c := by simp [hone]
        exact Nat.ne_of_lt (hwritten w (List.mem_filter.mp hmem).1)
      · rintro stream ⟨⟩
        exact opened_connect net address
    | error fault =>
      cases h
      refine ⟨?_, ?_, hsame⟩
      · simp [Stage.Wrote, Settled, hone, hcutShort]
      · rintro stream ⟨⟩
  | rewrite stream =>
    obtain ⟨rfl, w, hone, hcutShort, hne⟩ := hwrote
    have hs := hsocket stream rfl
    cases io with
    | ok =>
      cases h
      refine ⟨?_, hsocket, extends_write hs (bytesPut_le hcut)⟩
      simp [Stage.Wrote, Settled, writesOf_write, hone, hne, hcutShort, whole_of_ok]
    | error fault =>
      cases h
      refine ⟨?_, hsocket, extends_write hs (bytesPut_le hcut)⟩
      have hcutShort' := not_whole_of_cutsShort stream c hcut rfl
      simp [Stage.Wrote, Settled, writesOf_write, hone, hne, hcutShort, hcutShort']
  | done result => cases hrunning

/-- A task at work: its connection is one to the address of its send, it has written what its stage
    says, and it holds the lock while it runs. -/
structure Task.At (task : Task ε) (c : ℕ) (conn : Connection)
    (holder : Option ℕ) (net : Net) : Prop where
  address : conn.address = task.send.address
  waiting : task.stage = none → net.writesOf c = []
  wrote : ∀ stage, task.stage = some stage → stage.Wrote net c conn.socket
  holds : ∀ stage, task.stage = some stage → stage.returned = false → holder = some c

/-- A send that returned does not look at the slot any more. -/
lemma Stage.Wrote.of_returned {net : Net} {c socket} {stage : Stage ε} (h : stage.Wrote net c socket)
    (hreturned : stage.returned = true) (socket') : stage.Wrote net c socket' := by
  cases stage with
  | done => exact h
  | connect => cases hreturned
  | write => cases hreturned
  | reconnect => cases hreturned
  | rewrite => cases hreturned

/-- A task is not disturbed by the writes of others. -/
lemma Task.At.extends {task : Task ε} {c conn holder} {net net' : Net} (h : task.At c conn holder net)
    (e : net'.writesOf c = net.writesOf c) : task.At c conn holder net' where
  address := h.address
  waiting hstage := e.trans (h.waiting hstage)
  wrote stage hstage := (h.wrote stage hstage).congr e
  holds := h.holds

/-- A task that does not run is not disturbed by what happens to its connection. -/
lemma Task.At.of_idle {task : Task ε} {c conn conn' holder holder'} {net : Net}
    (h : task.At c conn holder net) (haddress : conn'.address = conn.address)
    (hidle : ∀ stage, task.stage = some stage → stage.returned = true) :
    task.At c conn' holder' net where
  address := haddress.trans h.address
  waiting := h.waiting
  wrote stage hstage := (h.wrote stage hstage).of_returned (hidle stage hstage) conn'.socket
  holds stage hstage hrunning := by
    rw [hidle stage hstage] at hrunning
    cases hrunning

/-- A task that gets the lock has written nothing. -/
lemma Stage.wrote_start {net : Net} {c} (h : net.writesOf c = []) (socket : Option ℕ) :
    (Stage.start socket : Stage ε).Wrote net c socket := by
  cases socket with
  | none => exact ⟨rfl, h⟩
  | some stream => exact ⟨rfl, h⟩

/-- A send that begins has not returned. -/
lemma Stage.returned_start (socket : Option ℕ) : (Stage.start socket : Stage ε).returned = false := by
  cases socket <;> rfl

namespace Sender

/-! ## Which sends have a task and which a result -/

/-- Every send has a number of its own; those that were spawned have a task or one result. -/
structure Queued (s : Sender L ε) : Prop where
  numbers : (s.queued.map QueuedSend.completeTx).Nodup
  placed : ∀ c, c ∈ s.spawned.map QueuedSend.completeTx ↔
    s.tasks c ≠ none ∨ c ∈ s.results.map Prod.fst
  apart : ∀ c, s.tasks c ≠ none → c ∉ s.results.map Prod.fst
  once : (s.results.map Prod.fst).Nodup

/-- A new sender has no sends. -/
lemma queued_new (connections : ConnectionCache L) : (new connections : Sender L ε).Queued where
  numbers := List.nodup_nil
  placed c := by simp [new]
  apart c h := absurd rfl h
  once := List.nodup_nil

/-- What matters is which sends there are, which have a task and which a result. -/
lemma Queued.of_eq {s s' : Sender L ε} (h : s.Queued) (hq : s'.queued = s.queued)
    (hs : s'.spawned = s.spawned) (ht : ∀ c, s'.tasks c = none ↔ s.tasks c = none)
    (hr : s'.results = s.results) : s'.Queued := by
  refine ⟨?_, ?_, ?_, ?_⟩
  · rw [hq]
    exact h.numbers
  · intro c
    rw [hs, hr, Ne, ht]
    exact h.placed c
  · intro c hc
    rw [hr]
    exact h.apart c fun e => hc ((ht c).mpr e)
  · rw [hr]
    exact h.once

/-- A task that goes on is still there. -/
lemma update_eq_none {s : Sender L ε} {c task} (htask : s.tasks c = some task) (task' : Task ε) (c') :
    Function.update s.tasks c (some task') c' = none ↔ s.tasks c' = none := by
  rw [Function.update_apply]
  split
  case isTrue e => simp [e, htask]
  case isFalse => rfl

/-- The send that was received is not spawned yet. -/
lemma Queued.not_spawned {s : Sender L ε} (h : s.Queued) {q} (hreceived : s.received = some q) :
    q.completeTx ∉ s.spawned.map QueuedSend.completeTx := by
  have hnodup := h.numbers
  rw [queued, hreceived, List.append_assoc, List.map_append] at hnodup
  intro hmem
  refine (List.nodup_append.mp hnodup).2.2 q.completeTx hmem q.completeTx ?_ rfl
  simp

/-- A send that was received has no task. -/
lemma Queued.no_task {s : Sender L ε} (h : s.Queued) {q} (hreceived : s.received = some q) :
    s.tasks q.completeTx = none := by
  by_contra hne
  exact h.not_spawned hreceived ((h.placed q.completeTx).mpr (.inl hne))

/-- One event keeps it. -/
lemma queued_step {lru : LruCrate L} {s s' : Sender L ε} {e} (h : s.Queued) (hstep : Step lru s e s') :
    s'.Queued := by
  cases hstep with
  | @send q hnew =>
    refine { h with numbers := ?_ }
    have e : (s.send q).queued = s.queued ++ [q] := by simp [queued, send]
    rw [e, List.map_append, List.nodup_append]
    refine ⟨h.numbers, List.nodup_singleton _, ?_⟩
    intro c hc c' hc' hcc
    rw [List.map_singleton, List.mem_singleton] at hc'
    exact hnew (hc' ▸ hcc ▸ hc)
  | evictSocket => exact h.of_eq rfl rfl (fun _ => Iff.rfl) rfl
  | @recvSend q rest hchannel hfree =>
    refine h.of_eq ?_ rfl (fun _ => Iff.rfl) rfl
    simp [queued, recvSend, hchannel, hfree]
  | @spawn q hreceived =>
    have hnot := h.not_spawned hreceived
    refine ⟨?_, ?_, ?_, h.once⟩
    · have e : (s.spawn lru q).queued = s.queued := by simp [queued, spawn, hreceived]
      rw [e]
      exact h.numbers
    · intro c
      simp only [spawn, List.map_append, List.map_singleton, List.mem_append, List.mem_singleton,
        Function.update_apply, h.placed c]
      by_cases e : c = q.completeTx
      · simp [e]
      · simp [e]
    · intro c hc
      simp only [spawn, Function.update_apply] at hc
      split at hc
      case isTrue e =>
        rw [e]
        exact fun hmem => hnot ((h.placed _).mpr (.inr hmem))
      case isFalse => exact h.apart c hc
  | recvEvict => exact h.of_eq rfl rfl (fun _ => Iff.rfl) rfl
  | remove => exact h.of_eq rfl rfl (fun _ => Iff.rfl) rfl
  | lock htask => exact h.of_eq rfl rfl (update_eq_none htask _) rfl
  | io htask => exact h.of_eq rfl rfl (update_eq_none htask _) rfl
  | @complete c task result htask _ =>
    have hnot : c ∉ s.results.map Prod.fst := h.apart c (by simp [htask])
    refine ⟨h.numbers, ?_, ?_, ?_⟩
    · intro c'
      simp only [complete, List.map_append, List.map_singleton, List.mem_append, List.mem_singleton,
        Function.update_apply]
      rw [h.placed c']
      by_cases e : c' = c
      · simp [e, htask]
      · simp [e]
    · intro c' hc'
      simp only [complete, Function.update_apply] at hc'
      split at hc'
      case isTrue => exact absurd rfl hc'
      case isFalse e =>
        simp only [complete, List.map_append, List.map_singleton, List.mem_append, List.mem_singleton]
        rintro (hmem | rfl)
        · exact h.apart c' hc' hmem
        · exact e rfl
    · simp only [complete, List.map_append, List.map_singleton, List.nodup_append]
      refine ⟨h.once, List.nodup_singleton c, ?_⟩
      intro c' hmem c'' hmem' e
      rw [List.mem_singleton] at hmem'
      exact hnot (hmem' ▸ e ▸ hmem)

/-! ## Where sockets lead -/

/-- A cached connection is one that was made for its address, and a socket leads to the address of
    its connection. -/
structure Connected (find : L → SocketAddr → Option ℕ) (s : Sender L ε) : Prop where
  cached : ∀ a id, s.connections.find find a = some id →
    ∃ conn, s.connection id = some conn ∧ conn.address = a
  made : ∀ id conn, s.connection id = some conn → id < s.made
  sockets : ∀ id conn stream, s.connection id = some conn → conn.socket = some stream →
    s.net.opened[stream]? = some conn.address

/-- The tasks are at work for sends that were spawned, those that hold a lock run, results say what
    was written, and each write is one of a send's own data on a stream to its own address. -/
structure Worked (s : Sender L ε) : Prop where
  sent : ∀ c task, s.tasks c = some task → task.send ∈ s.spawned ∧ task.send.completeTx = c
  task : ∀ c task, s.tasks c = some task → ∃ conn, s.connection task.connection = some conn ∧
    task.At c conn (s.holder task.connection) s.net
  held : ∀ id c, s.holder id = some c → ∃ task stage, s.tasks c = some task ∧ task.connection = id ∧
    task.stage = some stage ∧ stage.returned = false
  results : ∀ c result, (c, result) ∈ s.results → Settled s.net c result
  written : ∀ w ∈ s.net.written, ∃ q ∈ s.spawned, w.IsOf s.net q.completeTx q.data q.address

/-- The sender task gives a send a connection that is cached for its address, or a new one. -/
lemma Connected.spawn_cases {lru : LruCrate L} {find} (hlru : lru.Lawful find) {s : Sender L ε}
    (h : s.Connected find) (q : QueuedSend) :
    (∃ id conn connections, s.connections.find find q.address = some id ∧
      s.connection id = some conn ∧ conn.address = q.address ∧
      ConnectionCache.find find connections = s.connections.find find ∧
      s.spawn lru q = { s with
        received := none
        connections
        spawned := s.spawned ++ [q]
        tasks := Function.update s.tasks q.completeTx (some ⟨q, id, none⟩) }) ∨
    ∃ connections, connections.find find q.address = some s.made ∧
      (∀ b, b ≠ q.address → connections.find find b = s.connections.find find b ∨
        connections.find find b = none) ∧
      s.spawn lru q = { s with
        received := none
        connections
        made := s.made + 1
        connection := Function.update s.connection s.made (some (.new q.address))
        spawned := s.spawned ++ [q]
        tasks := Function.update s.tasks q.completeTx (some ⟨q, s.made, none⟩) } := by
  rcases ConnectionCache.find_getOrInsert hlru s.connections q.address s.made with
    ⟨hfound, hfind⟩ | ⟨_, hnew, hfind, hother⟩
  · obtain ⟨conn, hconn, haddress⟩ := h.cached _ _ hfound
    have hne := Nat.ne_of_lt (h.made _ conn hconn)
    refine .inl ⟨_, conn, _, hfound, hconn, haddress, hfind, ?_⟩
    simp only [spawn, if_neg hne]
  · refine .inr ⟨_, hfind, hother, ?_⟩
    simp only [spawn, hnew, if_true]

/-- A connection that was made is not the next one. -/
lemma Connected.update_made {find : L → SocketAddr → Option ℕ} {s : Sender L ε} (h : s.Connected find)
    {id conn} (hconn : s.connection id = some conn) (new) :
    Function.update s.connection s.made new id = some conn := by
  rw [Function.update_of_ne (Nat.ne_of_lt (h.made id conn hconn)), hconn]

/-- An operation of a task, at the state of the sender. -/
lemma io_spec {find : L → SocketAddr → Option ℕ} {s : Sender L ε} (hc : s.Connected find)
    (hw : s.Worked) {c task stage conn} {io : Io ε}
    (htask : s.tasks c = some task) (hstage : task.stage = some stage)
    (hrunning : stage.returned = false) (hconn : s.connection task.connection = some conn)
    (hcut : Io.CutsShort io task.send.data) {stage' socket' net'}
    (h : stage.advance conn.address task.send.data c io conn.socket s.net = (stage', socket', net')) :
    stage'.Wrote net' c socket' ∧
      (∀ stream, socket' = some stream → net'.opened[stream]? = some conn.address) ∧
      s.net.Extends net' fun w => w.IsOf net' c task.send.data conn.address := by
  obtain ⟨conn', hconn', hat⟩ := hw.task c task htask
  rw [hconn] at hconn'
  cases hconn'
  refine advance_spec h hrunning hcut (hat.wrote stage hstage) ?_ ?_
  · exact fun stream => hc.sockets task.connection conn stream hconn
  · intro w hmem
    obtain ⟨_, _, _, _, _, hopened⟩ := hw.written w hmem
    exact (List.getElem?_eq_some_iff.mp hopened).1

/-- One event keeps where sockets lead. -/
lemma connected_step {lru : LruCrate L} {find} (hlru : lru.Lawful find) {s s' : Sender L ε} {e}
    (h : s.Connected find) (hw : s.Worked) (hstep : Step lru s e s') : s'.Connected find := by
  cases hstep with
  | send => exact ⟨h.cached, h.made, h.sockets⟩
  | evictSocket => exact ⟨h.cached, h.made, h.sockets⟩
  | recvSend => exact ⟨h.cached, h.made, h.sockets⟩
  | @spawn q hreceived =>
    rcases h.spawn_cases hlru q with ⟨id, conn, _, _, _, _, hfind, e⟩ | ⟨_, hfind, hother, e⟩
    · rw [e]
      refine ⟨?_, h.made, h.sockets⟩
      intro a id
      rw [hfind]
      exact h.cached a id
    · rw [e]
      refine ⟨?_, ?_, ?_⟩
      · intro a id hid
        by_cases ha : a = q.address
        · rw [ha, hfind] at hid
          cases hid
          exact ⟨.new q.address, Function.update_self _ _ _, ha.symm⟩
        · have hid' : s.connections.find find a = some id := by
            rcases hother a ha with e' | e'
            · exact e' ▸ hid
            · rw [e'] at hid
              cases hid
          obtain ⟨conn, hconn, haddress⟩ := h.cached a id hid'
          exact ⟨conn, h.update_made hconn _, haddress⟩
      · intro id conn hconn
        simp only [Function.update_apply] at hconn
        split at hconn
        case isTrue e' => exact e' ▸ Nat.lt_succ_self _
        case isFalse => exact Nat.lt_succ_of_lt (h.made id conn hconn)
      · intro id conn stream hconn hsocket
        simp only [Function.update_apply] at hconn
        split at hconn
        case isTrue =>
          cases hconn
          cases hsocket
        case isFalse => exact h.sockets id conn stream hconn hsocket
  | recvEvict => exact ⟨h.cached, h.made, h.sockets⟩
  | @remove address _ =>
    refine ⟨?_, h.made, h.sockets⟩
    intro a id hid
    simp only [remove, ConnectionCache.find_remove hlru] at hid
    split at hid
    case isTrue => cases hid
    case isFalse => exact h.cached a id hid
  | lock => exact ⟨h.cached, h.made, h.sockets⟩
  | @io c task stage conn io htask hstage hrunning hconn hcut =>
    obtain ⟨_, hsocket, hext⟩ := io_spec h hw htask hstage hrunning hconn hcut rfl
    refine ⟨?_, ?_, ?_⟩
    · intro a id hid
      obtain ⟨conn', hconn', haddress⟩ := h.cached a id hid
      simp only [Sender.io, Function.update_apply]
      split
      case isTrue e =>
        rw [e, hconn] at hconn'
        cases hconn'
        exact ⟨_, rfl, haddress⟩
      case isFalse => exact ⟨conn', hconn', haddress⟩
    · intro id conn' hconn'
      simp only [Sender.io, Function.update_apply] at hconn'
      split at hconn'
      case isTrue e => exact e ▸ h.made _ conn hconn
      case isFalse => exact h.made id conn' hconn'
    · intro id conn' stream hconn' hsock
      simp only [Sender.io, Function.update_apply] at hconn'
      split at hconn'
      case isTrue =>
        cases hconn'
        exact hsocket stream hsock
      case isFalse => exact hext.opened (h.sockets id conn' stream hconn' hsock)
  | complete => exact ⟨h.cached, h.made, h.sockets⟩

/-- A send that was not spawned has written nothing. -/
lemma Worked.writesOf_eq_nil {s : Sender L ε} (h : s.Worked) {c}
    (hnot : c ∉ s.spawned.map QueuedSend.completeTx) : s.net.writesOf c = [] := by
  rw [Net.writesOf, List.filter_eq_nil_iff]
  intro w hmem hwriter
  obtain ⟨q, hq, hnumber, _⟩ := h.written w hmem
  exact hnot (List.mem_map.mpr ⟨q, hq, hnumber.symm.trans (of_decide_eq_true hwriter)⟩)

/-- Two tasks that run on one connection are one. -/
lemma Worked.running_unique {s : Sender L ε} (h : s.Worked) {c c' task task' stage stage'}
    (htask : s.tasks c = some task) (htask' : s.tasks c' = some task')
    (hsame : task'.connection = task.connection) (hstage : task.stage = some stage)
    (hstage' : task'.stage = some stage') (hrunning : stage.returned = false)
    (hrunning' : stage'.returned = false) : c' = c := by
  obtain ⟨_, _, hat⟩ := h.task c task htask
  obtain ⟨_, _, hat'⟩ := h.task c' task' htask'
  have hholder := hat'.holds stage' hstage' hrunning'
  rw [hsame, hat.holds stage hstage hrunning] at hholder
  cases hholder
  rfl

/-- A spawned task has done nothing yet, and the others go on. -/
lemma worked_spawn {lru : LruCrate L} {find} (hlru : lru.Lawful find) {s : Sender L ε} {q}
    (hq : s.Queued) (hc : s.Connected find) (h : s.Worked) (hreceived : s.received = some q) :
    (s.spawn lru q).Worked := by
  have hnone := hq.no_task hreceived
  have hwrote := h.writesOf_eq_nil (hq.not_spawned hreceived)
  have hother : ∀ {c task}, s.tasks c = some task → c ≠ q.completeTx := by
    rintro c task htask rfl
    rw [hnone] at htask
    cases htask
  -- the parts that do not depend on where the connection comes from
  have hsent : ∀ id c task, Function.update s.tasks q.completeTx (some ⟨q, id, none⟩) c = some task →
      task.send ∈ s.spawned ++ [q] ∧ task.send.completeTx = c := by
    intro id c task htask
    rw [Function.update_apply] at htask
    split at htask
    case isTrue e =>
      cases htask
      exact ⟨List.mem_append_right _ (List.mem_singleton_self q), e.symm⟩
    case isFalse =>
      obtain ⟨hmem, hnumber⟩ := h.sent c task htask
      exact ⟨List.mem_append_left _ hmem, hnumber⟩
  have hheld : ∀ id' id c, s.holder id = some c → ∃ task stage,
      Function.update s.tasks q.completeTx (some ⟨q, id', none⟩) c = some task ∧
      task.connection = id ∧ task.stage = some stage ∧ stage.returned = false := by
    intro id' id c hholder
    obtain ⟨task, stage, htask, hrest⟩ := h.held id c hholder
    exact ⟨task, stage, by rw [Function.update_of_ne (hother htask), htask], hrest⟩
  have hwritten : ∀ w ∈ s.net.written, ∃ q' ∈ s.spawned ++ [q],
      w.IsOf s.net q'.completeTx q'.data q'.address := by
    intro w hmem
    obtain ⟨q', hq', hof⟩ := h.written w hmem
    exact ⟨q', List.mem_append_left _ hq', hof⟩
  have hat : ∀ {id c conn holder}, c = q.completeTx → conn.address = q.address →
      (⟨q, id, none⟩ : Task ε).At c conn holder s.net := by
    rintro id _ conn holder rfl haddress
    refine ⟨haddress, fun _ => hwrote, ?_, ?_⟩
    · rintro stage ⟨⟩
    · rintro stage ⟨⟩
  rcases hc.spawn_cases hlru q with ⟨id, conn, _, _, hconn, haddress, _, e⟩ | ⟨_, _, _, e⟩
  · rw [e]
    refine ⟨hsent id, ?_, hheld id, h.results, hwritten⟩
    intro c task htask
    simp only [Function.update_apply] at htask
    split at htask
    case isTrue e' =>
      cases htask
      exact ⟨conn, hconn, hat e' haddress⟩
    case isFalse => exact h.task c task htask
  · rw [e]
    refine ⟨hsent s.made, ?_, hheld s.made, h.results, hwritten⟩
    intro c task htask
    simp only [Function.update_apply] at htask
    split at htask
    case isTrue e' =>
      cases htask
      exact ⟨.new q.address, Function.update_self _ _ _, hat e' rfl⟩
    case isFalse =>
      obtain ⟨conn, hconn, hat⟩ := h.task c task htask
      exact ⟨conn, hc.update_made hconn _, hat⟩

/-- A task that gets the lock runs; nobody else did on its connection. -/
lemma worked_lock {s : Sender L ε} (h : s.Worked) {c task conn} (htask : s.tasks c = some task)
    (hwaiting : task.stage = none) (hconn : s.connection task.connection = some conn)
    (hfree : s.holder task.connection = none) : (s.lock c task conn).Worked := by
  obtain ⟨conn', hconn', hat⟩ := h.task c task htask
  rw [hconn] at hconn'
  cases hconn'
  refine ⟨?_, ?_, ?_, h.results, h.written⟩
  · intro c' task' htask'
    simp only [lock, Function.update_apply] at htask'
    split at htask'
    case isTrue e =>
      cases htask'
      rw [e]
      exact h.sent c task htask
    case isFalse => exact h.sent c' task' htask'
  · intro c' task' htask'
    simp only [lock, Function.update_apply] at htask'
    split at htask'
    case isTrue e =>
      cases htask'
      refine ⟨conn, hconn, ⟨hat.address, ?_, ?_, ?_⟩⟩
      · rintro ⟨⟩
      · rintro stage ⟨⟩
        rw [e]
        exact Stage.wrote_start (hat.waiting hwaiting) conn.socket
      · intro _ _ _
        rw [e]
        exact Function.update_self _ _ _
    case isFalse =>
      obtain ⟨conn', hconn', hat'⟩ := h.task c' task' htask'
      refine ⟨conn', hconn', ?_⟩
      by_cases hsame : task'.connection = task.connection
      · refine hat'.of_idle rfl ?_
        intro stage hstage
        -- it does not run, as the lock is free
        by_contra hrunning
        have hholder := hat'.holds stage hstage (by simpa using hrunning)
        rw [hsame, hfree] at hholder
        cases hholder
      · simp only [lock, Function.update_of_ne hsame]
        exact hat'
  · intro id c' hholder
    simp only [lock, Function.update_apply] at hholder ⊢
    split at hholder
    case isTrue e =>
      cases hholder
      exact ⟨_, _, if_pos rfl, e.symm, rfl, Stage.returned_start conn.socket⟩
    case isFalse =>
      obtain ⟨task', stage, htask', hid, hstage, hrunning⟩ := h.held id c' hholder
      have hne : c' ≠ c := by
        rintro rfl
        rw [htask] at htask'
        cases htask'
        rw [hwaiting] at hstage
        cases hstage
      exact ⟨task', stage, by rw [if_neg hne, htask'], hid, hstage, hrunning⟩

/-- An operation of a task moves the task; the others neither run on its connection nor see its
    writes. -/
lemma worked_io {find : L → SocketAddr → Option ℕ} {s : Sender L ε} (hq : s.Queued)
    (hc : s.Connected find) (h : s.Worked) {c task stage conn} {io : Io ε}
    (htask : s.tasks c = some task) (hstage : task.stage = some stage)
    (hrunning : stage.returned = false) (hconn : s.connection task.connection = some conn)
    (hcut : Io.CutsShort io task.send.data) : (s.io c task stage conn io).Worked := by
  obtain ⟨hwrote, _, hext⟩ := io_spec hc h htask hstage hrunning hconn hcut rfl
  obtain ⟨conn', hconn', hat⟩ := h.task c task htask
  rw [hconn] at hconn'
  cases hconn'
  obtain ⟨hmem, hnumber⟩ := h.sent c task htask
  have hwrites : ∀ {c'}, c' ≠ c → (s.io c task stage conn io).net.writesOf c' = s.net.writesOf c' := by
    intro c' hne
    obtain ⟨os, ws, ho, hw, hP⟩ := hext
    exact Net.Extends.writesOf ⟨os, ws, ho, hw, fun w hmem => (hP w hmem).1⟩ hne
  refine ⟨?_, ?_, ?_, ?_, ?_⟩
  · intro c' task' htask'
    simp only [Sender.io, Function.update_apply] at htask'
    split at htask'
    case isTrue e =>
      cases htask'
      rw [e]
      exact ⟨hmem, hnumber⟩
    case isFalse => exact h.sent c' task' htask'
  · intro c' task' htask'
    simp only [Sender.io, Function.update_apply] at htask'
    split at htask'
    case isTrue e =>
      cases htask'
      subst e
      refine ⟨_, Function.update_self _ _ _, ⟨hat.address, ?_, ?_, ?_⟩⟩
      · rintro ⟨⟩
      · rintro stage' ⟨⟩
        exact hwrote
      · rintro stage' ⟨⟩ hrunning'
        simp only [Sender.io, hrunning', Bool.false_eq_true, if_false]
        exact hat.holds stage hstage hrunning
    case isFalse hne =>
      obtain ⟨conn', hconn', hat'⟩ := h.task c' task' htask'
      by_cases hsame : task'.connection = task.connection
      · rw [hsame, hconn] at hconn'
        cases hconn'
        refine ⟨_, (congrArg _ hsame).trans (Function.update_self _ _ _), ?_⟩
        refine Task.At.extends (hat'.of_idle ?_ ?_) (hwrites hne)
        · rfl
        · intro stage' hstage'
          -- the one that runs is `c`
          by_contra hrunning'
          refine hne (h.running_unique htask htask' hsame hstage hstage' hrunning ?_)
          simpa using hrunning'
      · refine ⟨conn', (Function.update_of_ne hsame _ _).trans hconn', ?_⟩
        have hholder : (s.io c task stage conn io).holder task'.connection =
            s.holder task'.connection := by
          simp only [Sender.io]
          split
          case isTrue => exact Function.update_of_ne hsame _ _
          case isFalse => rfl
        rw [hholder]
        exact hat'.extends (hwrites hne)
  · intro id c' hholder
    have hheld : s.holder id = some c' ∧
        (c' = c → (stage.advance conn.address task.send.data c io conn.socket s.net).1.returned = false) := by
      simp only [Sender.io] at hholder
      split at hholder
      case isTrue =>
        rw [Function.update_apply] at hholder
        split at hholder
        case isTrue => cases hholder
        case isFalse hid =>
          refine ⟨hholder, ?_⟩
          rintro rfl
          obtain ⟨task', _, htask', hid', _⟩ := h.held id c' hholder
          rw [htask] at htask'
          cases htask'
          exact absurd hid'.symm hid
      case isFalse hreturned => exact ⟨hholder, fun _ => by simpa using hreturned⟩
    obtain ⟨task', stage', htask', hid, hstage', hrunning'⟩ := h.held id c' hheld.1
    by_cases e : c' = c
    · subst e
      rw [htask] at htask'
      cases htask'
      exact ⟨_, _, Function.update_self _ _ _, hid, rfl, hheld.2 rfl⟩
    · exact ⟨task', stage', (Function.update_of_ne e _ _).trans htask', hid, hstage', hrunning'⟩
  · intro c' result hresult
    have hne : c' ≠ c := by
      rintro rfl
      exact hq.apart c' (by simp [htask]) (List.mem_map_of_mem hresult)
    exact (h.results c' result hresult).congr (hwrites hne)
  · intro w hw
    obtain ⟨_, ws, _, hwritten, hP⟩ := id hext
    rcases List.mem_append.mp (hwritten ▸ hw) with hw | hw
    · obtain ⟨q, hqmem, hwriter, hdata, hput, hopened⟩ := h.written w hw
      exact ⟨q, hqmem, hwriter, hdata, hput, hext.opened hopened⟩
    · obtain ⟨hwriter, hdata, hput, hopened⟩ := hP w hw
      exact ⟨task.send, hmem, hwriter.trans hnumber.symm, hdata, hput, hat.address ▸ hopened⟩

/-- A task that ends hands over the result it has. -/
lemma worked_complete {s : Sender L ε} (h : s.Worked) {c task} {result : SendResult ε}
    (htask : s.tasks c = some task) (hdone : task.stage = some (.done result)) :
    (s.complete c result).Worked := by
  have hother : ∀ {c' task'}, (s.complete c result).tasks c' = some task' → s.tasks c' = some task' := by
    intro c' task' htask'
    simp only [complete, Function.update_apply] at htask'
    split at htask'
    case isTrue => cases htask'
    case isFalse => exact htask'
  refine ⟨?_, ?_, ?_, ?_, h.written⟩
  · exact fun c' task' htask' => h.sent c' task' (hother htask')
  · exact fun c' task' htask' => h.task c' task' (hother htask')
  · intro id c' hholder
    obtain ⟨task', stage, htask', hid, hstage, hrunning⟩ := h.held id c' hholder
    have hne : c' ≠ c := by
      rintro rfl
      rw [htask] at htask'
      cases htask'
      rw [hdone] at hstage
      cases hstage
      cases hrunning
    exact ⟨task', stage, (Function.update_of_ne hne _ _).trans htask', hid, hstage, hrunning⟩
  · intro c' result' hmem
    rcases List.mem_append.mp hmem with hmem | hmem
    · exact h.results c' result' hmem
    · cases List.mem_singleton.mp hmem
      obtain ⟨_, _, hat⟩ := h.task c task htask
      exact hat.wrote (.done result) hdone

/-- One event keeps what tasks have done. -/
lemma worked_step {lru : LruCrate L} {find} (hlru : lru.Lawful find) {s s' : Sender L ε} {e}
    (hq : s.Queued) (hc : s.Connected find) (h : s.Worked) (hstep : Step lru s e s') : s'.Worked := by
  cases hstep with
  | send => exact ⟨h.sent, h.task, h.held, h.results, h.written⟩
  | evictSocket => exact ⟨h.sent, h.task, h.held, h.results, h.written⟩
  | recvSend => exact ⟨h.sent, h.task, h.held, h.results, h.written⟩
  | spawn hreceived => exact worked_spawn hlru hq hc h hreceived
  | recvEvict => exact ⟨h.sent, h.task, h.held, h.results, h.written⟩
  | remove => exact ⟨h.sent, h.task, h.held, h.results, h.written⟩
  | lock htask hwaiting hconn hfree => exact worked_lock h htask hwaiting hconn hfree
  | io htask hstage hrunning hconn hcut => exact worked_io hq hc h htask hstage hrunning hconn hcut
  | complete htask hdone => exact worked_complete h htask hdone

/-- The invariant. -/
structure Inv (find : L → SocketAddr → Option ℕ) (s : Sender L ε) : Prop where
  queued : s.Queued
  connected : s.Connected find
  worked : s.Worked

/-- A new sender, with the cache that was made for it. -/
lemma inv_new {lru : LruCrate L} {find} (hlru : lru.Lawful find) (useLru lruSize) :
    (new (createConnections lru useLru lruSize) : Sender L ε).Inv find where
  queued := queued_new _
  connected := by
    refine ⟨?_, ?_, ?_⟩
    · intro a id h
      rw [new, ConnectionCache.find_createConnections hlru] at h
      cases h
    · intro id conn h
      cases h
    · intro id conn stream h
      cases h
  worked := by
    refine ⟨?_, ?_, ?_, ?_, ?_⟩
    · intro c task h
      cases h
    · intro c task h
      cases h
    · intro id c h
      cases h
    · intro c result h
      cases h
    · intro w h
      cases h

/-- One event keeps the invariant. -/
lemma inv_step {lru : LruCrate L} {find} (hlru : lru.Lawful find) {s s' : Sender L ε} {e}
    (h : s.Inv find) (hstep : Step lru s e s') : s'.Inv find where
  queued := queued_step h.queued hstep
  connected := connected_step hlru h.connected h.worked hstep
  worked := worked_step hlru h.queued h.connected h.worked hstep

/-- The invariant holds in every run. -/
lemma inv_run {lru : LruCrate L} {find} (hlru : lru.Lawful find) {useLru lruSize}
    {es : List (Event ε)} {s : Sender L ε}
    (r : Run (Step lru) (new (createConnections lru useLru lruSize)) es s) : s.Inv find :=
  r.invariant (inv_new hlru useLru lruSize) (inv_step hlru)

end Sender

end ShardusNet.Transport
