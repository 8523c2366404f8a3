import ShardusNet.Transport.CacheHistory
import ShardusNet.Transport.Evict
import ShardusNet.Transport.Streams
import Mathlib.Data.Set.Card
/-!
# Open sockets

How many sockets a sender keeps. A connection lives while the cache or a task has it; when the last
one lets go of it, `Drop for Connection` spawns a task that shuts its stream down, and the stream
stays open until this task has run. `SocketStep` puts these tasks over the steps of the sender.

* `session_run`: the cache of a sender, in any order of its tasks, has a history as a `Session`.
* `Live`, `openSockets`: the connections that live, and the streams in their slots.
* `Sockets`, `Sockets.openStreams`: with the streams that shutdown tasks have, all that are open.
* `openSockets_run`: with the LRU cache no more streams are open than its capacity, one for each
  send task and one for each shutdown task; a stream that a shutdown task has, or that is not open, is
  never written on again.
-/

namespace ShardusNet.Transport
open Wire ByteCodec Framing Runs Recency

variable {L ε : Type*} {lru : LruCrate L} {find : L → SocketAddr → Option ℕ} {capacity : L → ℕ+}
  {entries : L → List (SocketAddr × ℕ)}

namespace Sender

/-! ## The history of the cache -/

/-- The sender and evictor tasks call the cache one after the other, so that it has a history. -/
lemma session_run {useLru lruSize} {es : List (Event ε)} {s : Sender L ε}
    (r : Run (Step lru) (new (createConnections lru useLru lruSize)) es s) :
    ∃ calls, ((Session.start lru useLru lruSize).run lru calls).connections = s.connections ∧
      ((Session.start lru useLru lruSize).run lru calls).made.length = s.made := by
  refine r.invariant (I := fun s => ∃ calls,
    ((Session.start lru useLru lruSize).run lru calls).connections = s.connections ∧
      ((Session.start lru useLru lruSize).run lru calls).made.length = s.made) ⟨[], rfl, rfl⟩ ?_
  rintro s e s' ⟨calls, hconnections, hmade⟩ hstep
  cases hstep with
  | send => exact ⟨calls, hconnections, hmade⟩
  | evictSocket => exact ⟨calls, hconnections, hmade⟩
  | recvSend => exact ⟨calls, hconnections, hmade⟩
  | @spawn q =>
    refine ⟨calls ++ [.request q.address], ?_, ?_⟩
    · simp only [Session.run_concat, Session.call, Session.getOrInsert, spawn, hconnections, hmade]
    · simp only [Session.run_concat, Session.call, Session.getOrInsert, spawn, hconnections, hmade]
      split
      case isTrue => rw [List.length_append, List.length_singleton, hmade]
      case isFalse => exact hmade
  | recvEvict => exact ⟨calls, hconnections, hmade⟩
  | @remove address =>
    refine ⟨calls ++ [.remove address], ?_, ?_⟩
    · simp only [Session.run_concat, Session.call, remove, hconnections]
    · simp only [Session.run_concat, Session.call, remove, hmade]
  | lock => exact ⟨calls, hconnections, hmade⟩
  | io => exact ⟨calls, hconnections, hmade⟩
  | complete => exact ⟨calls, hconnections, hmade⟩

/-- The LRU cache of a sender has room for its entries. -/
lemma cached_run (h : lru.Documented capacity entries) {c : ℕ+} {es : List (Event ε)}
    {s : Sender L ε}
    (r : Run (Step lru) (new (createConnections lru true c)) es s) :
    ∃ l, s.connections = .lruCache l ∧ (entries l).length ≤ c := by
  obtain ⟨calls, hconnections, _⟩ := session_run r
  obtain ⟨_, ⟨l, hl, _, rfl⟩, hrun⟩ := Session.run_lruCache h (Session.holds_start h c) calls
  exact ⟨l, hconnections.symm.trans hl, (Session.sound_run hrun).length_le⟩

/-! ## Connections that live -/

/-- The cache or a task has the connection. -/
def Live (find : L → SocketAddr → Option ℕ) (s : Sender L ε) (id : ℕ) : Prop :=
  (∃ a, s.connections.find find a = some id) ∨ ∃ c task, s.tasks c = some task ∧
    task.connection = id

/-- The streams in the slots of the connections that live. -/
def openSockets (find : L → SocketAddr → Option ℕ) (s : Sender L ε) : Set ℕ :=
  {stream | ∃ id conn, s.Live find id ∧ s.connection id = some conn ∧ conn.socket = some stream}

/-- The sends that have a task. -/
def running (s : Sender L ε) : List QueuedSend := s.spawned.filter fun q => (s.tasks q.completeTx).isSome

/-- When the task of a send moves on with its connection, or ends, no connection comes to life. -/
lemma live_of_update {s s' : Sender L ε} {id c old new} (hlive : s'.Live find id)
    (hold : s.tasks c = some old) (hconnections : s'.connections = s.connections)
    (htasks : s'.tasks = Function.update s.tasks c new)
    (hnew : ∀ task, new = some task → task.connection = old.connection) : s.Live find id := by
  rcases hlive with ⟨a, ha⟩ | ⟨c', task, htask, rfl⟩
  · exact .inl ⟨a, hconnections ▸ ha⟩
  · rw [htasks, Function.update_apply] at htask
    split at htask
    case isTrue => exact .inr ⟨c, old, hold, (hnew task htask).symm⟩
    case isFalse => exact .inr ⟨c', task, htask, rfl⟩

/-- A connection that lives after a step did so before, or it is new. -/
lemma live_step (hlru : lru.Lawful find) {s s' : Sender L ε} {e} (h : s.Inv find)
    (hstep : Step lru s e s') {id} (hlive : s'.Live find id) : s.Live find id ∨ s.made ≤ id := by
  cases hstep with
  | send => exact .inl hlive
  | evictSocket => exact .inl hlive
  | recvSend => exact .inl hlive
  | @spawn q hreceived =>
    rcases h.connected.spawn_cases hlru q with
      ⟨id', conn, connections, hfound, _, _, hfind, e⟩ | ⟨connections, hnew, hother, e⟩
    · rw [e] at hlive
      rcases hlive with ⟨a, ha⟩ | ⟨c, task, htask, rfl⟩
      · exact .inl (.inl ⟨a, by rw [← hfind]; exact ha⟩)
      · simp only [Function.update_apply] at htask
        split at htask
        case isTrue =>
          cases htask
          exact .inl (.inl ⟨q.address, hfound⟩)
        case isFalse => exact .inl (.inr ⟨c, task, htask, rfl⟩)
    · rw [e] at hlive
      rcases hlive with ⟨a, ha⟩ | ⟨c, task, htask, rfl⟩
      · simp only at ha
        by_cases hq : a = q.address
        · rw [hq, hnew] at ha
          cases ha
          exact .inr (Nat.le_refl _)
        · rcases hother a hq with hsame | hgone
          · exact .inl (.inl ⟨a, hsame ▸ ha⟩)
          · rw [hgone] at ha
            cases ha
      · simp only [Function.update_apply] at htask
        split at htask
        case isTrue =>
          cases htask
          exact .inr (Nat.le_refl _)
        case isFalse => exact .inl (.inr ⟨c, task, htask, rfl⟩)
  | recvEvict => exact .inl hlive
  | remove =>
    rcases hlive with ⟨a, ha⟩ | htask
    · rw [remove, ConnectionCache.find_remove hlru] at ha
      split at ha
      case isTrue => cases ha
      case isFalse => exact .inl (.inl ⟨a, ha⟩)
    · exact .inl (.inr htask)
  | @lock c task conn htask =>
    refine .inl (live_of_update hlive htask rfl rfl ?_)
    rintro _ ⟨⟩
    rfl
  | @io c task stage conn io htask =>
    refine .inl (live_of_update hlive htask rfl rfl ?_)
    rintro _ ⟨⟩
    rfl
  | @complete c task result htask =>
    refine .inl (live_of_update hlive htask rfl rfl ?_)
    rintro _ ⟨⟩

/-- What is written on a stream is written by a task, whose connection lives. -/
lemma mem_openSockets_of_target {s : Sender L ε} (h : s.Inv find) {c task stage stream conn}
    (htask : s.tasks c = some task) (hstage : task.stage = some stage)
    (htarget : stage.target = some stream) (hconn : s.connection task.connection = some conn) :
    stream ∈ s.openSockets find :=
  ⟨task.connection, conn, .inr ⟨c, task, htask, rfl⟩, hconn,
    h.socket_of_target htask hstage htarget hconn⟩

/-- A stream that is open after a step was open before, where the slots hold what they held. -/
lemma open_of_step (hlru : lru.Lawful find) {s s' : Sender L ε} {e} (h : s.Inv find)
    (hstep : Step lru s e s') {stream} (hopen : stream ∈ s'.openSockets find)
    (hslot : ∀ id conn, s'.connection id = some conn → conn.socket = some stream →
      ∃ old, s.connection id = some old ∧ old.socket = some stream) :
        stream ∈ s.openSockets find := by
  obtain ⟨id, conn, hlive, hconn, hsocket⟩ := hopen
  obtain ⟨old, hold, hsame⟩ := hslot id conn hconn hsocket
  rcases live_step hlru h hstep hlive with hlive | hnew
  · exact ⟨id, old, hlive, hold, hsame⟩
  · exact absurd (h.connected.made id old hold) (Nat.not_lt_of_le hnew)

/-- A stream that was opened and is open no more stays so, and nothing more is written on it. -/
lemma closed_step (hlru : lru.Lawful find) {s s' : Sender L ε} {e} (h : s.Inv find)
    (hstep : Step lru s e s') {stream} (hlt : stream < s.net.opened.length)
    (hclosed : stream ∉ s.openSockets find) :
    stream ∉ s'.openSockets find ∧ s'.net.writesOn stream = s.net.writesOn stream := by
  have hstays : (∀ id conn, s'.connection id = some conn → conn.socket = some stream →
      ∃ old, s.connection id = some old ∧ old.socket =
        some stream) → stream ∉ s'.openSockets find :=
    fun hslot hopen => hclosed (open_of_step hlru h hstep hopen hslot)
  cases hstep with
  | send => exact ⟨hstays fun _ conn hconn hsocket => ⟨conn, hconn, hsocket⟩, rfl⟩
  | evictSocket => exact ⟨hstays fun _ conn hconn hsocket => ⟨conn, hconn, hsocket⟩, rfl⟩
  | recvSend => exact ⟨hstays fun _ conn hconn hsocket => ⟨conn, hconn, hsocket⟩, rfl⟩
  | @spawn q hreceived =>
    refine ⟨hstays fun id conn hconn hsocket => ?_, rfl⟩
    rcases h.connected.spawn_cases hlru q with ⟨_, _, _, _, _, _, _, e⟩ | ⟨_, _, _, e⟩
    · rw [e] at hconn
      exact ⟨conn, hconn, hsocket⟩
    · rw [e] at hconn
      simp only [Function.update_apply] at hconn
      split at hconn
      case isTrue =>
        cases hconn
        cases hsocket
      case isFalse => exact ⟨conn, hconn, hsocket⟩
  | recvEvict => exact ⟨hstays fun _ conn hconn hsocket => ⟨conn, hconn, hsocket⟩, rfl⟩
  | remove => exact ⟨hstays fun _ conn hconn hsocket => ⟨conn, hconn, hsocket⟩, rfl⟩
  | lock => exact ⟨hstays fun _ conn hconn hsocket => ⟨conn, hconn, hsocket⟩, rfl⟩
  | @io c task stage conn io htask hstage hrunning hconn hcut =>
    refine ⟨hstays fun id conn' hconn' hsocket => ?_, ?_⟩
    · simp only [Sender.io, Function.update_apply] at hconn'
      split at hconn'
      case isTrue e =>
        cases hconn'
        simp only at hsocket
        rcases advance_socket stage conn.address task.send.data c io conn.socket s.net with hs | hs | hs
        · rw [hs] at hsocket
          cases hsocket
        · exact ⟨conn, e ▸ hconn, hs ▸ hsocket⟩
        · rw [hs] at hsocket
          cases hsocket
          exact absurd hlt (Nat.lt_irrefl _)
      case isFalse => exact ⟨conn', hconn', hsocket⟩
    · cases htarget : stage.target with
      | none => rw [Net.writesOn, Sender.io, advance_written_of_none htarget, Net.writesOn]
      | some stream' =>
        -- the task writes on a stream that is open
        have hne : stream' ≠ stream := by
          rintro rfl
          exact hclosed (mem_openSockets_of_target h htask hstage htarget hconn)
        rw [Sender.io, advance_net_of_some htarget, Net.write_writesOn, if_neg hne, List.append_nil]
  | complete => exact ⟨hstays fun _ conn hconn hsocket => ⟨conn, hconn, hsocket⟩, rfl⟩

/-! ## How many -/

/-- The open streams are among the slots of the connections of the cache and of the tasks. -/
lemma openSockets_subset {s : Sender L ε} (h : s.Worked) {l} (hl : s.connections = .lruCache l) :
    s.openSockets (fun l => lookup (entries l)) ⊆
      ((((entries l).map Prod.snd ++ s.running.filterMap fun q =>
        (s.tasks q.completeTx).map Task.connection).filterMap fun id =>
          (s.connection id).bind Connection.socket).toFinset : Set ℕ) := by
  rintro stream ⟨id, conn, hlive, hconn, hsocket⟩
  rw [Finset.mem_coe, List.mem_toFinset, List.mem_filterMap]
  refine ⟨id, List.mem_append.mpr ?_, by rw [hconn]; exact hsocket⟩
  rcases hlive with ⟨a, ha⟩ | ⟨c, task, htask, rfl⟩
  · rw [hl] at ha
    obtain ⟨entry, hentry, rfl⟩ := Option.map_eq_some_iff.mp ha
    exact .inl (List.mem_map_of_mem (List.mem_of_find?_eq_some hentry))
  · obtain ⟨hspawned, rfl⟩ := h.sent c task htask
    refine .inr (List.mem_filterMap.mpr ⟨task.send, List.mem_filter.mpr ⟨hspawned, ?_⟩, ?_⟩)
    · rw [htask]
      rfl
    · rw [htask]
      rfl

/-- No more streams are open than the entries of the cache and the tasks. -/
lemma ncard_openSockets_le {s : Sender L ε} (h : s.Worked) {l} (hl : s.connections = .lruCache l) :
    (s.openSockets fun l => lookup (entries l)).Finite ∧
      (s.openSockets fun l => lookup (entries l)).ncard ≤ (entries l).length + s.running.length := by
  have hsubset := @openSockets_subset _ _ entries s h l hl
  refine ⟨Set.Finite.subset (Finset.finite_toSet _) hsubset, ?_⟩
  refine (Set.ncard_le_ncard hsubset (Finset.finite_toSet _)).trans ?_
  rw [Set.ncard_coe_finset]
  refine (List.toFinset_card_le _).trans ((List.length_filterMap_le _ _).trans ?_)
  rw [List.length_append, List.length_map]
  exact Nat.add_le_add_left (List.length_filterMap_le _ _) _

end Sender

/-! ## Shutdown tasks -/

/-- The streams of the connections that are dropped from one state to another: they lived, and live no
    more. -/
def Sender.dropped (find : L → SocketAddr → Option ℕ) (s s' : Sender L ε) : Set ℕ :=
  {stream | ∃ id conn, s.Live find id ∧ ¬ s'.Live find id ∧ s.connection id = some conn ∧
    conn.socket = some stream}

/-- A sender, and the streams of the shutdown tasks that have not run yet. -/
structure Sockets (L ε : Type*) where
  sender : Sender L ε
  closing : Set ℕ

/-- What happens to a sender and its shutdown tasks. -/
inductive SocketEvent (ε : Type*) where
  | sender (e : Event ε)
  | shutdown (stream : ℕ)

/-- It is a step of a task. -/
def SocketEvent.Internal : SocketEvent ε → Prop
  | .sender e => e.Internal
  | .shutdown _ => True

/-- One event: one of the sender, where each dropped connection that has a stream spawns a task for
    it, or the end of such a task, which closes its stream. -/
inductive SocketStep (lru : LruCrate L) (find : L → SocketAddr → Option ℕ) :
    Sockets L ε → SocketEvent ε → Sockets L ε → Prop
  | sender {s e sender'} (h : Step lru s.sender e sender') :
    SocketStep lru find s (.sender e) ⟨sender', s.closing ∪ s.sender.dropped find sender'⟩
  | shutdown {s stream} (h : stream ∈ s.closing) :
    SocketStep lru find s (.shutdown stream) { s with closing := s.closing \ {stream} }

namespace Sockets

/-- A new sender has no shutdown tasks. -/
def new (connections : ConnectionCache L) : Sockets L ε := ⟨.new connections, ∅⟩

/-- The streams that are open: those in the slots of the connections that live, and those of shutdown
    tasks. -/
def openStreams (find : L → SocketAddr → Option ℕ) (s : Sockets L ε) : Set ℕ :=
  s.sender.openSockets find ∪ s.closing

/-- No task can take a step. -/
def Idle (lru : LruCrate L) (find : L → SocketAddr → Option ℕ) (s : Sockets L ε) : Prop :=
  ∀ e s', SocketStep lru find s e s' → ¬ e.Internal

/-- A shutdown task has a stream that was opened and that no connection has that lives. -/
structure Inv (find : L → SocketAddr → Option ℕ) (s : Sockets L ε) : Prop where
  finite : s.closing.Finite
  opened : ∀ stream ∈ s.closing, stream < s.sender.net.opened.length
  given : ∀ stream ∈ s.closing, stream ∉ s.sender.openSockets find

end Sockets

namespace Sender

/-- What is dropped was open. -/
lemma dropped_subset (s s' : Sender L ε) : s.dropped find s' ⊆ s.openSockets find := by
  rintro stream ⟨id, conn, hlive, _, hconn, hsocket⟩
  exact ⟨id, conn, hlive, hconn, hsocket⟩

/-- A connection that lives no more after a step has kept its slot. -/
lemma connection_of_dead (hlru : lru.Lawful find) {s s' : Sender L ε} {e} (h : s.Inv find)
    (hstep : Step lru s e s') {id conn} (hdead : ¬ s'.Live find id) (hconn : s.connection id = some conn) :
    s'.connection id = some conn := by
  cases hstep with
  | send => exact hconn
  | evictSocket => exact hconn
  | recvSend => exact hconn
  | @spawn q hreceived =>
    rcases h.connected.spawn_cases hlru q with ⟨_, _, _, _, _, _, _, e⟩ | ⟨_, _, _, e⟩
    · rw [e]
      exact hconn
    · rw [e]
      have hne : id ≠ s.made := Nat.ne_of_lt (h.connected.made id conn hconn)
      simp only [Function.update_of_ne hne]
      exact hconn
  | recvEvict => exact hconn
  | remove => exact hconn
  | lock => exact hconn
  | @io c task stage conn' io htask =>
    -- the task still has its connection
    have hne : id ≠ task.connection := by
      rintro rfl
      exact hdead (.inr ⟨c, _, Function.update_self c _ s.tasks, rfl⟩)
    simp only [Sender.io, Function.update_of_ne hne]
    exact hconn
  | complete => exact hconn

/-- What is dropped is in no slot of a connection that lives. -/
lemma not_open_of_dropped (hlru : lru.Lawful find) {s s' : Sender L ε} {e} (h : s.Inv find)
    (hapart : s.Apart) (hstep : Step lru s e s') {stream} (hdropped : stream ∈ s.dropped find s') :
    stream ∉ s'.openSockets find := by
  obtain ⟨id, conn, _, hdead, hconn, hsocket⟩ := hdropped
  rintro ⟨id', conn', hlive', hconn', hsocket'⟩
  have hkept := connection_of_dead hlru h hstep hdead hconn
  have hsame := (apart_step hlru h hapart hstep).sockets id id' conn conn' stream hkept hconn' hsocket
    hsocket'
  exact hdead (hsame ▸ hlive')

/-- A stream in the slot of a connection that lives was opened. -/
lemma Inv.opened_of_open {s : Sender L ε} (h : s.Inv find) {stream} (hopen : stream ∈ s.openSockets find) :
    stream < s.net.opened.length := by
  obtain ⟨id, conn, _, hconn, hsocket⟩ := hopen
  exact h.socket_lt hconn hsocket

end Sender

namespace Sockets

/-- One event keeps the streams of the shutdown tasks apart from those of the connections. -/
lemma Inv.step (hlru : lru.Lawful find) {s s' : Sockets L ε} {e} (h : s.Inv find)
    (hsender : s.sender.Inv find) (hapart : s.sender.Apart) (hfinite : (s.sender.openSockets find).Finite)
    (hstep : SocketStep lru find s e s') : s'.Inv find := by
  cases hstep with
  | @sender e sender' hstep =>
    have hgrows := Sender.opened_grows hsender hstep
    refine ⟨h.finite.union (hfinite.subset (Sender.dropped_subset _ _)), ?_, ?_⟩
    · rintro stream (hclosing | hdropped)
      · exact Nat.lt_of_lt_of_le (h.opened stream hclosing) hgrows.length_le
      · exact Nat.lt_of_lt_of_le (hsender.opened_of_open (Sender.dropped_subset _ _ hdropped))
          hgrows.length_le
    · rintro stream (hclosing | hdropped)
      · exact (Sender.closed_step hlru hsender hstep (h.opened stream hclosing)
          (h.given stream hclosing)).1
      · exact Sender.not_open_of_dropped hlru hsender hapart hstep hdropped
  | shutdown =>
    exact ⟨h.finite.subset Set.sdiff_subset, fun stream hmem => h.opened stream hmem.1,
      fun stream hmem => h.given stream hmem.1⟩

/-- A run of a sender with its shutdown tasks is one of the sender. -/
lemma run_sender {s s' : Sockets L ε} {es} (r : Run (SocketStep lru find) s es s') :
    ∃ es', Run (Step lru) s.sender es' s'.sender := by
  induction r with
  | refl => exact ⟨[], .refl⟩
  | tail _ hstep ih =>
    obtain ⟨es', r'⟩ := ih
    cases hstep with
    | sender h => exact ⟨_, r'.tail h⟩
    | shutdown => exact ⟨es', r'⟩

/-- A run of a sender is one in which no shutdown task runs. -/
lemma run_of_sender (find : L → SocketAddr → Option ℕ) {s s' : Sender L ε} {es}
    (r : Run (Step lru) s es s') (closing : Set ℕ) :
    ∃ closing', closing ⊆ closing' ∧
      Run (SocketStep lru find) ⟨s, closing⟩ (es.map .sender) ⟨s', closing'⟩ := by
  induction r with
  | refl => exact ⟨closing, subset_refl _, .refl⟩
  | @tail es s₁ s₂ e _ hstep ih =>
    obtain ⟨closing', hsub, r'⟩ := ih
    refine ⟨closing' ∪ s₁.dropped find s₂, hsub.trans Set.subset_union_left, ?_⟩
    rw [List.map_append]
    exact r'.tail (.sender hstep)

/-- One event opens no stream again that was open before, and writes nothing on one that a shutdown
    task has. -/
lemma closed_step (hlru : lru.Lawful find) {s s' : Sockets L ε} {e} (hsender : s.sender.Inv find)
    (hstep : SocketStep lru find s e s') {stream} (hlt : stream < s.sender.net.opened.length)
    (hgiven : stream ∉ s.sender.openSockets find) :
    (stream ∉ s'.sender.openSockets find ∧
        s'.sender.net.writesOn stream = s.sender.net.writesOn stream) ∧
      (stream ∉ s.closing → stream ∉ s'.closing) := by
  cases hstep with
  | sender hstep =>
    refine ⟨Sender.closed_step hlru hsender hstep hlt hgiven, ?_⟩
    rintro hclosing (hmem | hdropped)
    · exact hclosing hmem
    · exact hgiven (Sender.dropped_subset _ _ hdropped)
  | shutdown => exact ⟨⟨hgiven, rfl⟩, fun hclosing hmem => hclosing hmem.1⟩

/-- The same in every run. -/
lemma closed_run (hlru : lru.Lawful find) {s s' : Sockets L ε} {es} (hsender : s.sender.Inv find)
    (r : Run (SocketStep lru find) s es s') {stream} (hlt : stream < s.sender.net.opened.length)
    (hgiven : stream ∉ s.sender.openSockets find) :
    (stream ∉ s'.sender.openSockets find ∧
        s'.sender.net.writesOn stream = s.sender.net.writesOn stream) ∧
      (stream ∉ s.closing → stream ∉ s'.closing) := by
  induction r with
  | refl => exact ⟨⟨hgiven, rfl⟩, id⟩
  | tail r hstep ih =>
    obtain ⟨⟨hgiven', hsame⟩, hclosing⟩ := ih
    obtain ⟨es', r'⟩ := run_sender r
    have hinv := r'.invariant hsender (Sender.inv_step hlru)
    have hlt' := Nat.lt_of_lt_of_le hlt (Sender.opened_run hlru hsender r').length_le
    obtain ⟨⟨hgiven'', hsame'⟩, hclosing'⟩ := closed_step hlru hinv hstep hlt' hgiven'
    exact ⟨⟨hgiven'', hsame'.trans hsame⟩, fun h => hclosing' (hclosing h)⟩

/-- A sender and its shutdown tasks are idle when the sender is, and all streams that were given up
    are closed. -/
lemma Idle.sender {s : Sockets L ε} (h : s.Idle lru find) : s.sender.Idle lru ∧ s.closing = ∅ := by
  refine ⟨fun e sender' hstep => h (.sender e) _ (.sender hstep), ?_⟩
  rw [Set.eq_empty_iff_forall_notMem]
  intro stream hmem
  exact h (.shutdown stream) _ (.shutdown hmem) trivial

/-- With the LRU cache, the streams in the slots are no more than its capacity and the send tasks. -/
lemma ncard_openSockets (h : lru.Documented capacity entries) {c : ℕ+} {es : List (Event ε)}
    {s : Sender L ε} (r : Run (Step lru) (.new (createConnections lru true c)) es s) :
    (s.openSockets fun l => lookup (entries l)).Finite ∧
      (s.openSockets fun l => lookup (entries l)).ncard ≤ c + s.running.length := by
  obtain ⟨l, hl, hlen⟩ := Sender.cached_run h r
  obtain ⟨hfinite, hcard⟩ :=
    @Sender.ncard_openSockets_le _ _ entries s (Sender.inv_run h.lawful r).worked l hl
  exact ⟨hfinite, hcard.trans (Nat.add_le_add_right hlen _)⟩

/-- The invariant holds in every run with the LRU cache. -/
lemma inv_run (h : lru.Documented capacity entries) {c : ℕ+} {es : List (SocketEvent ε)}
    {s : Sockets L ε}
    (r : Run (SocketStep lru fun l => lookup (entries l)) (.new (createConnections lru true c)) es s) :
    s.Inv fun l => lookup (entries l) := by
  induction r with
  | refl => exact ⟨Set.finite_empty, nofun, nofun⟩
  | tail r hstep ih =>
    obtain ⟨_, r'⟩ := run_sender r
    exact ih.step h.lawful (Sender.inv_run h.lawful r') (Sender.apart_run h.lawful r')
      (ncard_openSockets h r').1 hstep

end Sockets

/-- **Open sockets.** In every run of a sender with the LRU cache and of its shutdown tasks, whatever
    fails and in whatever order the tasks take their steps, no more streams are open than the capacity
    of the cache, one for each send task that is not done and one for each shutdown task that has not
    run; when no task can take a step, no more than the capacity. A stream that a shutdown task has is
    never written on again; nor is one that was opened and is open no more, and it is never open
    again. -/
theorem openSockets_run (h : lru.Documented capacity entries) {c : ℕ+} {es : List (SocketEvent ε)}
    {s : Sockets L ε}
    (r : Run (SocketStep lru fun l => lookup (entries l)) (.new (createConnections lru true c)) es s) :
    (s.openStreams fun l => lookup (entries l)).Finite ∧
    (s.openStreams fun l => lookup (entries l)).ncard ≤ c + s.sender.running.length + s.closing.ncard ∧
    ((s.Idle lru fun l => lookup (entries l)) →
      (s.openStreams fun l => lookup (entries l)).ncard ≤ c) ∧
    ∀ es' s', Run (SocketStep lru fun l => lookup (entries l)) s es' s' →
      ∀ stream < s.sender.net.opened.length,
        (stream ∈ s.closing ∨ stream ∉ s.openStreams (fun l => lookup (entries l)) →
          s'.sender.net.writesOn stream = s.sender.net.writesOn stream) ∧
        (stream ∉ s.openStreams (fun l => lookup (entries l)) →
          stream ∉ s'.openStreams fun l => lookup (entries l)) := by
  have hlru := h.lawful
  obtain ⟨es₀, r₀⟩ := Sockets.run_sender r
  have hsender := Sender.inv_run hlru r₀
  have hinv := Sockets.inv_run h r
  obtain ⟨hfinite, hcard⟩ := Sockets.ncard_openSockets h r₀
  have hle : (s.openStreams fun l => lookup (entries l)).ncard ≤
      c + s.sender.running.length + s.closing.ncard :=
    (Set.ncard_union_le _ _).trans (Nat.add_le_add_right hcard _)
  refine ⟨hfinite.union hinv.finite, hle, fun hidle => ?_, ?_⟩
  · obtain ⟨hsenderIdle, hclosing⟩ := hidle.sender
    have hnone : s.sender.running = [] := by
      rw [Sender.running, List.filter_eq_nil_iff]
      intro q _ hsome
      rw [Sender.no_task_of_idle hsender.worked hsenderIdle] at hsome
      cases hsome
    rwa [hnone, hclosing, List.length_nil, Set.ncard_empty, Nat.add_zero] at hle
  · intro es' s' r' stream hlt
    constructor
    · rintro (hclosing | hclosed)
      · exact (Sockets.closed_run hlru hsender r' hlt (hinv.given stream hclosing)).1.2
      · exact (Sockets.closed_run hlru hsender r' hlt fun hopen => hclosed (.inl hopen)).1.2
    · intro hclosed
      obtain ⟨⟨hgiven, _⟩, hstays⟩ := Sockets.closed_run hlru hsender r' hlt fun hopen =>
        hclosed (.inl hopen)
      exact fun hopen => hopen.elim hgiven (hstays fun hclosing => hclosed (.inr hclosing))

/-- A send to another address. -/
def displacing : QueuedSend := ⟨Session.otherAddr, [98], 1⟩

/-- A send that meets no failure, and another one to another address. -/
def displacedEvents : List (Event Unit) :=
  [.send sampleQueued, .recvSend, .spawn, .lock 0, .io 0 (.ok ()), .io 0 (.ok ()), .complete 0,
    .send displacing, .recvSend] ++ [.spawn] ++ [.lock 1, .io 1 (.ok ()), .io 1 (.ok ()), .complete 1]

/-- The run of the sender: the connection of the first send lives until that of the second takes its
    place in the cache. -/
lemma run_displacedEvents : ∃ s₁ s₂ s₃ : Sender (ℕ+ × List (SocketAddr × ℕ)) Unit,
    Run (Step listLru) (.new (createConnections listLru true 1)) [.send sampleQueued, .recvSend, .spawn,
      .lock 0, .io 0 (.ok ()), .io 0 (.ok ()), .complete 0, .send displacing, .recvSend] s₁ ∧
    Step listLru s₁ .spawn s₂ ∧
    Run (Step listLru) s₂ [.lock 1, .io 1 (.ok ()), .io 1 (.ok ()), .complete 1] s₃ ∧
    0 ∈ s₁.dropped (fun l => lookup l.2) s₂ ∧ s₃.running = [] ∧ s₃.net.opened.length = 2 ∧
    1 ∈ s₃.openSockets fun l => lookup l.2 := by
  have hok : ∀ data, Io.CutsShort (.ok () : Io Unit) data := by
    rintro data fault ⟨⟩
  have hnew : displacing.completeTx ∉ [sampleQueued].map QueuedSend.completeTx := by decide
  have hrun : ∃ s₁ s₂ s₃ : Sender (ℕ+ × List (SocketAddr × ℕ)) Unit,
      Run (Step listLru) (.new (createConnections listLru true 1)) [.send sampleQueued, .recvSend, .spawn,
        .lock 0, .io 0 (.ok ()), .io 0 (.ok ()), .complete 0, .send displacing, .recvSend] s₁ ∧
      Step listLru s₁ .spawn s₂ ∧
      Run (Step listLru) s₂ [.lock 1, .io 1 (.ok ()), .io 1 (.ok ()), .complete 1] s₃ ∧
      (s₁.connections.find (fun l => lookup l.2) sampleAddr = some 0 ∧
        s₁.connection 0 = some ⟨sampleAddr, some 0⟩) ∧
      (s₂.connections = .lruCache (1, [(Session.otherAddr, 1)]) ∧
        s₂.spawned = [sampleQueued, displacing] ∧ s₂.tasks 0 = none ∧
        s₂.tasks 1 = some ⟨displacing, 1, none⟩) ∧
      s₃.running = [] ∧ s₃.net.opened.length = 2 ∧ 1 ∈ s₃.openSockets fun l => lookup l.2 := by
    refine ⟨_, _, _, ((((((((Run.refl.tail (.send List.not_mem_nil)).tail (.recvSend rfl rfl)).tail
      (.spawn rfl)).tail (.lock rfl rfl rfl rfl)).tail (.io rfl rfl rfl rfl (hok _))).tail
      (.io rfl rfl rfl rfl (hok _))).tail (.complete rfl rfl)).tail (.send hnew)).tail
      (.recvSend rfl rfl), .spawn rfl, (((Run.refl.tail (.lock rfl rfl rfl rfl)).tail
      (.io rfl rfl rfl rfl (hok _))).tail (.io rfl rfl rfl rfl (hok _))).tail (.complete rfl rfl),
      ⟨rfl, rfl⟩, ⟨rfl, rfl, rfl, rfl⟩, rfl, rfl, 1, _, .inl ⟨Session.otherAddr, rfl⟩, rfl, rfl⟩
  obtain ⟨s₁, s₂, s₃, r₁, hspawn, r₃, ⟨hfound, hconn⟩, ⟨hconnections, hspawned, hdone, htask⟩,
    hrest⟩ := hrun
  refine ⟨s₁, s₂, s₃, r₁, hspawn, r₃, ⟨0, _, .inl ⟨sampleAddr, hfound⟩, ?_, hconn, rfl⟩, hrest⟩
  -- the cache and the only task have the other connection
  rintro (⟨a, ha⟩ | ⟨c, task, hc, hid⟩)
  · rw [hconnections] at ha
    obtain ⟨entry, hentry, hid⟩ := Option.map_eq_some_iff.mp ha
    rw [List.mem_singleton.mp (List.mem_of_find?_eq_some hentry)] at hid
    cases hid
  · obtain ⟨hmem, rfl⟩ := (Sender.inv_run lawful_listLru (r₁.tail hspawn)).worked.sent c task hc
    rw [hspawned] at hmem
    rcases List.mem_cons.mp hmem with e | e
    · rw [e, show sampleQueued.completeTx = 0 from rfl, hdone] at hc
      cases hc
    · rw [List.mem_singleton.mp e, show displacing.completeTx = 1 from rfl, htask] at hc
      cases hc
      cases hid

/-- After both sends two streams are open with a cache for one, and no send has a task: the first
    stream is with its shutdown task. When this has run one is left, and the first is open no more. -/
theorem openSockets_run_displaced : ∃ s s' : Sockets (ℕ+ × List (SocketAddr × ℕ)) Unit,
    Run (SocketStep listLru fun l => lookup l.2) (.new (createConnections listLru true 1))
      (displacedEvents.map .sender) s ∧
    s.sender.running = [] ∧ (s.openStreams fun l => lookup l.2) = {0, 1} ∧
    (s.openStreams fun l => lookup l.2).ncard ≤ 1 + 0 + 1 ∧
    SocketStep listLru (fun l => lookup l.2) s (.shutdown 0) s' ∧
    (s'.openStreams fun l => lookup l.2).ncard ≤ 1 + 0 + 0 ∧
    ∀ es'' s'', Run (SocketStep listLru fun l => lookup l.2) s' es'' s'' →
      0 ∉ s''.openStreams fun l => lookup l.2 := by
  obtain ⟨s₁, s₂, s₃, r₁, hspawn, r₃, hdropped, hrunning, hopened, hone⟩ := run_displacedEvents
  obtain ⟨closing₁, _, r₁⟩ := Sockets.run_of_sender (fun l => lookup l.2) r₁ ∅
  have r₂ := r₁.tail (.sender hspawn)
  obtain ⟨closing, hsub, r₃⟩ :=
    Sockets.run_of_sender (fun l => lookup l.2) r₃ (closing₁ ∪ s₁.dropped _ s₂)
  have r := r₂.append r₃
  have hbound := openSockets_run documented_listLru r
  have hinv := Sockets.inv_run documented_listLru r
  -- the shutdown task has the first stream, and no task has another
  have hclosing : closing = {0} := by
    ext stream
    constructor
    · intro hmem
      have hlt : stream < 2 := hopened ▸ hinv.opened stream hmem
      have hne : stream ≠ 1 := by
        rintro rfl
        exact hinv.given 1 hmem hone
      show stream = 0
      omega
    · rintro rfl
      exact hsub (.inr hdropped)
  subst hclosing
  have hshutdown : SocketStep listLru (fun l => lookup l.2) ⟨s₃, {0}⟩ (.shutdown 0)
      ⟨s₃, {0} \ {0}⟩ := .shutdown rfl
  have hgiven : 0 ∉ s₃.openSockets fun l => lookup l.2 := hinv.given 0 rfl
  have hnone : ({0} \ {0} : Set ℕ) = ∅ := Set.sdiff_self
  rw [hnone] at hshutdown
  have hafter := openSockets_run documented_listLru (r.tail hshutdown)
  refine ⟨_, _, r, hrunning, ?_, ?_, hshutdown, ?_, ?_⟩
  · ext stream
    constructor
    · rintro (hopen | hzero)
      · obtain ⟨_, r'⟩ := Sockets.run_sender r
        have hlt : stream < 2 := hopened ▸ (Sender.inv_run lawful_listLru r').opened_of_open hopen
        have hne : stream ≠ 0 := by
          rintro rfl
          exact hgiven hopen
        show stream = 0 ∨ stream = 1
        omega
      · exact .inl hzero
    · rintro (rfl | rfl)
      · exact .inr rfl
      · exact .inl hone
  · have hle := hbound.2.1
    rw [hrunning, Set.ncard_singleton] at hle
    exact hle
  · have hle := hafter.2.1
    rw [hrunning, Set.ncard_empty] at hle
    exact hle
  · intro es'' s'' r''
    have hlt : 0 < s₃.net.opened.length := by omega
    refine (hafter.2.2.2 es'' s'' r'' 0 hlt).2 ?_
    rintro (hopen | hclosing)
    · exact hgiven hopen
    · exact hclosing

end ShardusNet.Transport
