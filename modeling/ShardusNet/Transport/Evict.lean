import ShardusNet.Transport.SendResult
/-!
# Evicted sockets

What `evict_socket` does to later sends. The call puts the address on a channel of its own, and the
connection leaves the cache when the evictor task has taken it off that channel and has the lock of
the cache; until then the sender task still finds the connection.

* `advance_streams`: an operation of a send writes on the stream in the slot of its connection, and
  fills the slot with a new stream.
* `Fresh`: what holds after a removal. For the address that was removed, sends that had no task yet
  are served by connections that were made since, and these by streams that were opened since.
* `written_after_remove`: such a send writes on no stream that was open at the removal.
-/

namespace ShardusNet.Transport
open Wire ByteCodec Framing Runs

variable {L ε : Type*}

/-- The streams of one operation: a new stream in the slot is the last to be opened, and what is
    written is written on the stream that was in the slot. -/
lemma advance_streams {address : SocketAddr} {data : Bytes} {c : ℕ} {io : Io ε} {stage stage' : Stage ε}
    {socket socket' : Option ℕ} {net net' : Net}
    (h : stage.advance address data c io socket net = (stage', socket', net'))
    (hrunning : stage.returned = false) (hwrote : stage.Wrote net c socket) :
    (∀ stream, socket' = some stream → socket = some stream ∨ stream = net.opened.length) ∧
      ∃ ws, net'.written = net.written ++ ws ∧ ∀ w ∈ ws, w.writer = c ∧ socket = some w.stream := by
  have hnone : ∃ ws, net.written = net.written ++ ws ∧ ∀ w ∈ ws, w.writer = c ∧ socket = some w.stream :=
    ⟨[], (List.append_nil _).symm, by simp⟩
  have hone : ∀ stream put, socket = some stream →
      ∃ ws, (net.write ⟨stream, c, data, put⟩).written = net.written ++ ws ∧
        ∀ w ∈ ws, w.writer = c ∧ socket = some w.stream := by
    intro stream put hs
    refine ⟨[⟨stream, c, data, put⟩], rfl, ?_⟩
    intro w hw
    rw [List.mem_singleton.mp hw]
    exact ⟨rfl, hs⟩
  cases stage with
  | connect =>
    cases io with
    | ok =>
      cases h
      refine ⟨?_, hnone⟩
      rintro stream ⟨⟩
      exact .inr rfl
    | error fault =>
      cases h
      refine ⟨?_, hnone⟩
      rintro stream ⟨⟩
  | write stream =>
    obtain ⟨hs, _⟩ := hwrote
    cases io with
    | ok =>
      cases h
      exact ⟨fun _ => .inl, hone stream _ hs⟩
    | error fault =>
      cases h
      refine ⟨?_, hone stream _ hs⟩
      rintro stream ⟨⟩
  | reconnect =>
    cases io with
    | ok =>
      cases h
      refine ⟨?_, hnone⟩
      rintro stream ⟨⟩
      exact .inr rfl
    | error fault =>
      cases h
      refine ⟨?_, hnone⟩
      rintro stream ⟨⟩
  | rewrite stream =>
    obtain ⟨hs, _⟩ := hwrote
    cases io with
    | ok =>
      cases h
      exact ⟨fun _ => .inl, hone stream _ hs⟩
    | error fault =>
      cases h
      exact ⟨fun _ => .inl, hone stream _ hs⟩
  | done result => cases hrunning

namespace Sender

/-- Streams are only opened. -/
lemma opened_grows {lru : LruCrate L} {find} {s s' : Sender L ε} {e} (h : s.Inv find)
    (hstep : Step lru s e s') : s.net.opened <+: s'.net.opened := by
  cases hstep with
  | io htask hstage hrunning hconn hcut =>
    obtain ⟨_, _, os, _, ho, _⟩ := io_spec h.connected h.worked htask hstage hrunning hconn hcut rfl
    exact ⟨os, ho.symm⟩
  | _ => exact List.prefix_refl _

/-- The streams that were open stay open, with their numbers. -/
lemma opened_run {lru : LruCrate L} {find} (hlru : lru.Lawful find) {s s' : Sender L ε} {es}
    (h : s.Inv find) (r : Run (Step lru) s es s') : s.net.opened <+: s'.net.opened := by
  refine (r.invariant (I := fun s' => s'.Inv find ∧ s.net.opened <+: s'.net.opened)
    ⟨h, List.prefix_refl _⟩ ?_).2
  intro s' e s'' ⟨hinv, hprefix⟩ hstep
  exact ⟨inv_step hlru hinv hstep, hprefix.trans (opened_grows hinv hstep)⟩

/-- What holds after the connection to `address` was removed from the cache, where `made`
    connections had been made, `opened` streams opened, and the sends with the numbers in `old` had
    a task: what is new and leads to `address` was made and opened since. -/
structure Fresh (find : L → SocketAddr → Option ℕ) (address : SocketAddr) (made opened : ℕ)
    (old : List ℕ) (s : Sender L ε) : Prop where
  made_le : made ≤ s.made
  opened_le : opened ≤ s.net.opened.length
  cached : ∀ id, s.connections.find find address = some id → made ≤ id
  sockets : ∀ id conn stream, made ≤ id → s.connection id = some conn → conn.socket = some stream →
    opened ≤ stream
  tasks : ∀ c task, s.tasks c = some task → c ∉ old → task.send.address = address →
    made ≤ task.connection
  written : ∀ w ∈ s.net.written, w.writer ∉ old → s.net.opened[w.stream]? = some address →
    opened ≤ w.stream

/-- At the removal nothing is new. -/
lemma fresh_remove {lru : LruCrate L} {find} (hlru : lru.Lawful find) {s : Sender L ε} (h : s.Inv find)
    (address : SocketAddr) :
    (s.remove lru address).Fresh find address s.made s.net.opened.length
      (s.spawned.map QueuedSend.completeTx) where
  made_le := Nat.le_refl _
  opened_le := Nat.le_refl _
  cached id hid := by
    rw [remove, ConnectionCache.find_remove hlru, if_pos rfl] at hid
    cases hid
  sockets id conn stream hle hconn _ := absurd (h.connected.made id conn hconn) (Nat.not_lt_of_le hle)
  tasks c task htask hold _ := by
    obtain ⟨hmem, hnumber⟩ := h.worked.sent c task htask
    exact absurd (List.mem_map.mpr ⟨task.send, hmem, hnumber⟩) hold
  written w hw hold _ := by
    obtain ⟨q, hq, hwriter, _⟩ := h.worked.written w hw
    exact absurd (List.mem_map.mpr ⟨q, hq, hwriter.symm⟩) hold

/-- A send that gets its task now gets a connection that is cached or made now. -/
lemma fresh_spawn {lru : LruCrate L} {find} (hlru : lru.Lawful find) {address made opened old}
    {s : Sender L ε} {q} (hc : s.Connected find) (h : s.Fresh find address made opened old) :
    (s.spawn lru q).Fresh find address made opened old := by
  -- its own task is on connection `id`, the others as before
  have htasks : ∀ id c task, (q.address = address → made ≤ id) →
      Function.update s.tasks q.completeTx (some ⟨q, id, none⟩) c = some task → c ∉ old →
      task.send.address = address → made ≤ task.connection := by
    intro id c task hid htask hold haddress
    rw [Function.update_apply] at htask
    split at htask
    case isTrue =>
      cases htask
      exact hid haddress
    case isFalse => exact h.tasks c task htask hold haddress
  rcases hc.spawn_cases hlru q with ⟨id, _, _, hfound, _, _, hfind, e⟩ | ⟨_, hnew, hother, e⟩
  · rw [e]
    refine { h with cached := ?_, tasks := ?_ }
    · intro id hid
      rw [hfind] at hid
      exact h.cached id hid
    · intro c task
      refine htasks id c task ?_
      rintro rfl
      exact h.cached id hfound
  · rw [e]
    refine ⟨Nat.le_succ_of_le h.made_le, h.opened_le, ?_, ?_, ?_, h.written⟩
    · intro id hid
      by_cases ha : address = q.address
      · rw [ha, hnew] at hid
        cases hid
        exact h.made_le
      · rcases hother address ha with e' | e'
        · rw [e'] at hid
          exact h.cached id hid
        · rw [e'] at hid
          cases hid
    · intro id conn stream hle hconn hsocket
      simp only [Function.update_apply] at hconn
      split at hconn
      case isTrue =>
        cases hconn
        cases hsocket
      case isFalse => exact h.sockets id conn stream hle hconn hsocket
    · intro c task
      exact htasks s.made c task fun _ => h.made_le

/-- An operation of a new send fills the slot of a new connection with a new stream, and writes on
    the stream in it. -/
lemma fresh_io {find : L → SocketAddr → Option ℕ} {address made opened old} {s : Sender L ε}
    (hinv : s.Inv find) (h : s.Fresh find address made opened old) {c task stage conn} {io : Io ε}
    (htask : s.tasks c = some task) (hstage : task.stage = some stage)
    (hrunning : stage.returned = false) (hconn : s.connection task.connection = some conn)
    (hcut : Io.CutsShort io task.send.data) :
    (s.io c task stage conn io).Fresh find address made opened old := by
  obtain ⟨⟨stage', socket', net'⟩, hadvance⟩ :
    ∃ x, stage.advance conn.address task.send.data c io conn.socket s.net = x := ⟨_, rfl⟩
  have e : s.io c task stage conn io = { s with
      connection := Function.update s.connection task.connection (some { conn with socket := socket' })
      holder := if stage'.returned then Function.update s.holder task.connection none else s.holder
      tasks := Function.update s.tasks c (some { task with stage := some stage' })
      net := net' } := by
    simp only [Sender.io, hadvance]
  rw [e]
  obtain ⟨_, _, hext⟩ := io_spec hinv.connected hinv.worked htask hstage hrunning hconn hcut hadvance
  obtain ⟨conn', hconn', hat⟩ := hinv.worked.task c task htask
  rw [hconn] at hconn'
  cases hconn'
  obtain ⟨hslot, ws, hws, hwriter⟩ := advance_streams hadvance hrunning (hat.wrote stage hstage)
  obtain ⟨os, _, ho, _⟩ := id hext
  refine ⟨h.made_le, ?_, h.cached, ?_, ?_, ?_⟩
  · rw [ho, List.length_append]
    exact Nat.le_add_right_of_le h.opened_le
  · intro id conn' stream hle hconn' hsocket
    simp only [Function.update_apply] at hconn'
    split at hconn'
    case isTrue e' =>
      cases hconn'
      rcases hslot stream hsocket with hsame | rfl
      · exact h.sockets id conn stream hle (e' ▸ hconn) hsame
      · exact h.opened_le
    case isFalse => exact h.sockets id conn' stream hle hconn' hsocket
  · intro c' task' htask' hold haddress
    simp only [Function.update_apply] at htask'
    split at htask'
    case isTrue e' =>
      cases htask'
      exact h.tasks c task htask (e' ▸ hold) haddress
    case isFalse => exact h.tasks c' task' htask' hold haddress
  · intro w hw hold hopened
    rcases List.mem_append.mp (hws ▸ hw) with hbefore | hnow
    · -- an old write is on a stream that was open before
      obtain ⟨q, _, _, _, _, hq⟩ := hinv.worked.written w hbefore
      have hsame := hext.opened hq
      rw [hopened] at hsame
      exact h.written w hbefore hold (hq.trans hsame.symm)
    · obtain ⟨rfl, hsocket⟩ := hwriter w hnow
      have hlead := hext.opened (hinv.connected.sockets _ conn w.stream hconn hsocket)
      rw [hopened] at hlead
      have haddress : task.send.address = address := by
        rw [← hat.address]
        exact (Option.some.inj hlead).symm
      exact h.sockets _ conn w.stream (h.tasks w.writer task htask hold haddress) hconn hsocket

/-- One event keeps it. -/
lemma fresh_step {lru : LruCrate L} {find} (hlru : lru.Lawful find) {address made opened old}
    {s s' : Sender L ε} {e} (hinv : s.Inv find) (h : s.Fresh find address made opened old)
    (hstep : Step lru s e s') : s'.Fresh find address made opened old := by
  cases hstep with
  | send => exact { h with }
  | evictSocket => exact { h with }
  | recvSend => exact { h with }
  | spawn => exact fresh_spawn hlru hinv.connected h
  | recvEvict => exact { h with }
  | @remove a _ =>
    refine { h with cached := ?_ }
    intro id hid
    simp only [remove, ConnectionCache.find_remove hlru] at hid
    split at hid
    case isTrue => cases hid
    case isFalse => exact h.cached id hid
  | @lock c task conn htask =>
    refine { h with tasks := ?_ }
    intro c' task' htask' hold haddress
    simp only [lock, Function.update_apply] at htask'
    split at htask'
    case isTrue e =>
      cases htask'
      exact h.tasks c task htask (e ▸ hold) haddress
    case isFalse => exact h.tasks c' task' htask' hold haddress
  | io htask hstage hrunning hconn hcut => exact fresh_io hinv h htask hstage hrunning hconn hcut
  | @complete c task result =>
    refine { h with tasks := ?_ }
    intro c' task' htask' hold haddress
    simp only [complete, Function.update_apply] at htask'
    split at htask'
    case isTrue => cases htask'
    case isFalse => exact h.tasks c' task' htask' hold haddress

/-- It holds in every run from the removal on. -/
lemma fresh_run {lru : LruCrate L} {find} (hlru : lru.Lawful find) {s s' : Sender L ε} {es}
    (h : s.Inv find) {address} (hevicting : s.evicting = some address)
    (r : Run (Step lru) (s.remove lru address) es s') :
    s'.Fresh find address s.made s.net.opened.length (s.spawned.map QueuedSend.completeTx) := by
  refine (r.invariant (I := fun s' => s'.Inv find ∧ s'.Fresh find address s.made s.net.opened.length
    (s.spawned.map QueuedSend.completeTx)) ⟨?_, fresh_remove hlru h address⟩ ?_).2
  · exact inv_step hlru h (.remove hevicting)
  · intro s' e s'' ⟨hinv, hfresh⟩ hstep
    exact ⟨inv_step hlru hinv hstep, fresh_step hlru hinv hfresh hstep⟩

end Sender

/-- After a call of `evict_socket` and a removal of its address by the evictor task, a send that had
    no task at the removal, whenever it was queued, writes on no stream to the address that was open
    at the removal, and so on none that was open at the call. -/
theorem written_after_remove {lru : LruCrate L} {find} (hlru : lru.Lawful find) {useLru lruSize}
    {address : SocketAddr} {es₀ es₁ es₂ : List (Event ε)} {s₀ s₁ s₂ : Sender L ε}
    (r₀ : Run (Step lru) (.new (createConnections lru useLru lruSize)) es₀ s₀)
    (r₁ : Run (Step lru) (s₀.evictSocket address) es₁ s₁) (hevicting : s₁.evicting = some address)
    (r₂ : Run (Step lru) (s₁.remove lru address) es₂ s₂) {q : QueuedSend}
    (hnew : q.completeTx ∉ s₁.spawned.map QueuedSend.completeTx) :
    ∀ w ∈ s₂.net.writesOf q.completeTx,
      s₁.net.opened[w.stream]? ≠ some address ∧ s₀.net.opened[w.stream]? ≠ some address := by
  have hcalled : (s₀.evictSocket address).Inv find :=
    Sender.inv_step hlru (Sender.inv_run hlru r₀) .evictSocket
  have hinv : s₁.Inv find := r₁.invariant hcalled (Sender.inv_step hlru)
  have hfresh := Sender.fresh_run hlru hinv hevicting r₂
  have hprefix₁ : (s₀.evictSocket address).net.opened <+: s₁.net.opened :=
    Sender.opened_run hlru hcalled r₁
  have hprefix₂ : (s₁.remove lru address).net.opened <+: s₂.net.opened :=
    Sender.opened_run hlru (Sender.inv_step hlru hinv (.remove hevicting)) r₂
  intro w hw
  have hremoved : s₁.net.opened[w.stream]? ≠ some address := by
    intro hopened
    obtain ⟨hlt, _⟩ := List.getElem?_eq_some_iff.mp hopened
    have hlead : s₂.net.opened[w.stream]? = some address := getElem?_of_prefix hprefix₂ hopened
    obtain ⟨hwritten, hwriter⟩ := List.mem_filter.mp hw
    have hwriter' : w.writer = q.completeTx := of_decide_eq_true hwriter
    have hle := hfresh.written w hwritten (hwriter' ▸ hnew) hlead
    exact absurd hlt (Nat.not_lt_of_le hle)
  refine ⟨hremoved, ?_⟩
  intro hopened
  apply hremoved
  exact getElem?_of_prefix hprefix₁ hopened

/-! ## A send behind a call of `evict_socket` -/

/-- A send that follows the sample send. -/
def laterQueued : QueuedSend := ⟨sampleAddr, [98], 1⟩

/-- A write that succeeds cuts nothing short. -/
lemma cutsShort_ok (data : Bytes) : Io.CutsShort (.ok () : Io Unit) data := by
  rintro fault ⟨⟩

/-- The sender when the sample send has its result: connection 0 is cached, and its stream 0 is
    open. -/
def sampleSent : Sender (ℕ+ × List (SocketAddr × ℕ)) Unit :=
  (((((((Sender.new (createConnections listLru true 1)).send sampleQueued).recvSend sampleQueued []).spawn
    listLru sampleQueued).lock 0 ⟨sampleQueued, 0, none⟩ ⟨sampleAddr, none⟩).io 0
    ⟨sampleQueued, 0, some .connect⟩ .connect ⟨sampleAddr, none⟩ (.ok ())).io 0
    ⟨sampleQueued, 0, some (.write 0)⟩ (.write 0) ⟨sampleAddr, some 0⟩ (.ok ())).complete 0 (.ok ())

/-- The run of the sample send. -/
lemma run_sampleSent : Run (Step listLru) (.new (createConnections listLru true 1))
    [.send sampleQueued, .recvSend, .spawn, .lock 0, .io 0 (.ok ()), .io 0 (.ok ()), .complete 0]
    sampleSent :=
  ((((((Run.refl.tail (.send List.not_mem_nil)).tail (.recvSend rfl rfl)).tail (.spawn rfl)).tail
    (.lock rfl rfl rfl rfl)).tail (.io rfl rfl rfl rfl (cutsShort_ok _))).tail
    (.io rfl rfl rfl rfl (cutsShort_ok _))).tail (.complete rfl rfl)

/-- The later send has a number of its own. -/
lemma laterQueued_new : laterQueued.completeTx ∉
    (sampleSent.evictSocket sampleAddr).queued.map QueuedSend.completeTx := by decide

/-- The connection is removed before the later send gets its task: it is written on stream 1. -/
theorem written_after_remove_laterQueued : ∃ s : Sender (ℕ+ × List (SocketAddr × ℕ)) Unit,
    Run (Step listLru)
      (((sampleSent.evictSocket sampleAddr).recvEvict sampleAddr []).remove listLru sampleAddr)
      [.send laterQueued, .recvSend, .spawn, .lock 1, .io 1 (.ok ()), .io 1 (.ok ())] s ∧
    (s.net.writesOf 1).map Write.stream = [1] ∧ sampleSent.net.opened[1]? ≠ some sampleAddr := by
  have r : ∃ s : Sender (ℕ+ × List (SocketAddr × ℕ)) Unit,
      Run (Step listLru)
        (((sampleSent.evictSocket sampleAddr).recvEvict sampleAddr []).remove listLru sampleAddr)
        [.send laterQueued, .recvSend, .spawn, .lock 1, .io 1 (.ok ()), .io 1 (.ok ())] s ∧
      (s.net.writesOf 1).map Write.stream = [1] := by
    refine ⟨_, (((((Run.refl.tail (.send (by decide))).tail (.recvSend rfl rfl)).tail (.spawn rfl)).tail
      (.lock rfl rfl rfl rfl)).tail (.io rfl rfl rfl rfl (cutsShort_ok _))).tail
      (.io rfl rfl rfl rfl (cutsShort_ok _)), ?_⟩
    rfl
  obtain ⟨s, r, hs⟩ := r
  have hmem : 1 ∈ (s.net.writesOf 1).map Write.stream := by
    rw [hs]
    exact List.mem_singleton_self 1
  obtain ⟨w, hw, hstream⟩ := List.mem_map.mp hmem
  have hnew : laterQueued.completeTx ∉ ((sampleSent.evictSocket sampleAddr).recvEvict sampleAddr
      []).spawned.map QueuedSend.completeTx := by decide
  have h := written_after_remove lawful_listLru run_sampleSent (.single (.recvEvict rfl rfl)) rfl r
    hnew w hw
  exact ⟨s, r, hs, hstream ▸ h.2⟩

/-- The later send is called after `evict_socket` has returned, and gets its task before the evictor
    task has removed the connection: it is written on stream 0, which was open at the call. -/
theorem written_after_evict_fails :
    ∃ es s, Run (Step listLru) (sampleSent.evictSocket sampleAddr) es s ∧ .send laterQueued ∈ es ∧
      ∃ w ∈ s.net.writesOf laterQueued.completeTx,
        sampleSent.net.opened[w.stream]? = some laterQueued.address := by
  refine ⟨[.send laterQueued, .recvSend, .spawn, .lock 1, .io 1 (.ok ())], _,
    ((((Run.refl.tail (.send laterQueued_new)).tail (.recvSend rfl rfl)).tail (.spawn rfl)).tail
      (.lock rfl rfl rfl rfl)).tail (.io rfl rfl rfl rfl (cutsShort_ok _)), .head _,
    ⟨0, 1, [98], 5⟩, .head _, rfl⟩

end ShardusNet.Transport
