import ShardusNet.Transport.Framed
import ShardusNet.Transport.SendResult
/-!
# The streams of a sender

What the sends of a whole sender leave on its streams, in every run: many connections, their slots
and their locks, evictions, and tasks that take their steps in any order.

No two connections share a stream (`Apart`), and the second write of a send goes to a stream nobody
wrote on. So the framing of all streams breaks exactly when the first write of a send puts bytes on
a stream on which a write was cut short (`framed_run_iff`).
-/

namespace ShardusNet.Transport
open Wire ByteCodec Framing Runs

variable {L ε : Type*} {lru : LruCrate L} {find : L → SocketAddr → Option ℕ}

/-! ## One operation -/

/-- The stream that the next operation of a send writes on. -/
def Stage.target : Stage ε → Option ℕ
  | .write stream => some stream
  | .rewrite stream => some stream
  | _ => none

/-- An operation that does not write leaves the writes. -/
lemma advance_written_of_none {stage : Stage ε}
    (h : stage.target = none) (address data c io socket net) :
    (stage.advance address data c io socket net).2.2.written = net.written := by
  cases stage with
  | connect => cases io <;> rfl
  | write => cases h
  | reconnect => cases io <;> rfl
  | rewrite => cases h
  | done => rfl

/-- An operation that writes makes one write. -/
lemma advance_net_of_some {stage : Stage ε} {stream} (h : stage.target = some stream)
    (address data c io socket net) :
    (stage.advance address data c io socket net).2.2 =
      net.write ⟨stream, c, data, bytesPut io data⟩ := by
  cases stage with
  | connect => cases h
  | write => cases h; cases io <;> rfl
  | reconnect => cases h
  | rewrite => cases h; cases io <;> rfl
  | done => cases h

/-- The slot is given up, or kept, or it holds a new stream. -/
lemma advance_socket (stage : Stage ε) (address data c io socket net) :
    (stage.advance address data c io socket net).2.1 = none ∨
      (stage.advance address data c io socket net).2.1 = socket ∨
      (stage.advance address data c io socket net).2.1 = some net.opened.length := by
  cases stage with
  | connect =>
    cases io with
    | ok => exact .inr (.inr rfl)
    | error => exact .inl rfl
  | write =>
    cases io with
    | ok => exact .inr (.inl rfl)
    | error => exact .inl rfl
  | reconnect =>
    cases io with
    | ok => exact .inr (.inr rfl)
    | error => exact .inl rfl
  | rewrite => cases io <;> exact .inr (.inl rfl)
  | done => exact .inr (.inl rfl)

/-- A send comes to its second write with a new stream. -/
lemma advance_rewrite {stage : Stage ε} {address data c io socket net stream}
    (h : (stage.advance address data c io socket net).1 = .rewrite stream) :
    stage.target = none ∧ stream = net.opened.length := by
  cases stage with
  | connect => cases io <;> cases h
  | write => cases io <;> cases h
  | reconnect =>
    cases io with
    | ok => cases h; exact ⟨rfl, rfl⟩
    | error => cases h
  | rewrite => cases io <;> cases h
  | done => cases h

/-! ## Whose a stream is -/

namespace Sender

/-- No two connections share a stream, and nothing was written on the stream of a second write. -/
structure Apart (s : Sender L ε) : Prop where
  sockets : ∀ id id' conn conn' stream, s.connection id = some conn →
    s.connection id' = some conn' →
    conn.socket = some stream → conn'.socket = some stream → id = id'
  fresh : ∀ c task stream, s.tasks c = some task → task.stage = some (.rewrite stream) →
    s.net.writesOn stream = []

/-- Every write is on a stream that was opened. -/
lemma Inv.written_lt {s : Sender L ε} (h : s.Inv find) {w} (hw : w ∈ s.net.written) :
    w.stream < s.net.opened.length := by
  obtain ⟨_, _, _, _, _, hopened⟩ := h.worked.written w hw
  exact (List.getElem?_eq_some_iff.mp hopened).1

/-- Nothing was written on a stream that is not open yet. -/
lemma Inv.writesOn_opened {s : Sender L ε} (h : s.Inv find) :
    s.net.writesOn s.net.opened.length = [] := by
  rw [Net.writesOn, List.filter_eq_nil_iff]
  intro w hw e
  have hlt := h.written_lt hw
  rw [of_decide_eq_true e] at hlt
  exact absurd hlt (Nat.lt_irrefl _)

/-- A stream in a slot was opened. -/
lemma Inv.socket_lt {s : Sender L ε} (h : s.Inv find) {id conn stream}
    (hconn : s.connection id = some conn) (hsocket : conn.socket = some stream) :
    stream < s.net.opened.length :=
  (List.getElem?_eq_some_iff.mp (h.connected.sockets id conn stream hconn hsocket)).1

/-- A send writes on the stream in the slot of its connection. -/
lemma Inv.socket_of_target {s : Sender L ε} (h : s.Inv find) {c task stage stream conn}
    (htask : s.tasks c = some task) (hstage : task.stage = some stage)
    (htarget : stage.target = some stream) (hconn : s.connection task.connection = some conn) :
    conn.socket = some stream := by
  obtain ⟨conn', hconn', hat⟩ := h.worked.task c task htask
  rw [hconn] at hconn'
  cases hconn'
  have hwrote := hat.wrote stage hstage
  cases stage with
  | connect => cases htarget
  | write => cases htarget; exact hwrote.1
  | reconnect => cases htarget
  | rewrite => cases htarget; exact hwrote.1
  | done => cases htarget

/-- A new sender has no streams. -/
lemma apart_new (connections : ConnectionCache L) : (new connections : Sender L ε).Apart where
  sockets id _ _ _ _ h := by cases h
  fresh c _ _ h := by cases h

/-- A task that was spawned, or got the lock, is not at its second write. -/
lemma Apart.update {s s' : Sender L ε} (h : s.Apart) {c task}
    (htasks : s'.tasks = Function.update s.tasks c (some task))
    (hstage : ∀ stream, task.stage ≠ some (.rewrite stream)) (hnet : s'.net = s.net)
    (hconnection : ∀ id conn stream, s'.connection id = some conn → conn.socket = some stream →
      s.connection id = some conn) : s'.Apart where
  sockets id id' conn conn' stream hconn hconn' hsocket hsocket' :=
    h.sockets id id' conn conn' stream (hconnection id conn stream hconn hsocket)
      (hconnection id' conn' stream hconn' hsocket') hsocket hsocket'
  fresh c' task' stream htask' hstage' := by
    rw [htasks, Function.update_apply] at htask'
    rw [hnet]
    split at htask'
    case isTrue =>
      cases htask'
      exact absurd hstage' (hstage stream)
    case isFalse => exact h.fresh c' task' stream htask' hstage'

/-- An operation of a task keeps the streams of the connections apart. -/
lemma apart_io {s : Sender L ε} (hinv : s.Inv find) (h : s.Apart) {c task stage conn} {io : Io ε}
    (htask : s.tasks c = some task) (hstage : task.stage = some stage)
    (hrunning : stage.returned = false) (hconn : s.connection task.connection = some conn) :
    (s.io c task stage conn io).Apart := by
  refine ⟨?_, ?_⟩
  · -- the slot of the connection holds what it held, or a new stream
    have hslot : ∀ id conn' stream, (s.io c task stage conn io).connection id = some conn' →
        conn'.socket = some stream → (∃ old, s.connection id = some old ∧
          old.socket = some stream) ∨
          id = task.connection ∧ stream = s.net.opened.length := by
      intro id conn' stream hconn' hsocket
      simp only [Sender.io, Function.update_apply] at hconn'
      split at hconn'
      case isTrue e =>
        cases hconn'
        simp only at hsocket
        rcases advance_socket stage conn.address task.send.data c io conn.socket s.net with hs | hs | hs
        · rw [hs] at hsocket
          cases hsocket
        · rw [hs] at hsocket
          exact .inl ⟨conn, e ▸ hconn, hsocket⟩
        · rw [hs] at hsocket
          cases hsocket
          exact .inr ⟨e, rfl⟩
      case isFalse => exact .inl ⟨conn', hconn', hsocket⟩
    intro id id' conn₁ conn₂ stream hconn₁ hconn₂ hsocket₁ hsocket₂
    rcases hslot id conn₁ stream hconn₁ hsocket₁ with ⟨old₁, hold₁, hs₁⟩ | ⟨rfl, hs₁⟩
    · rcases hslot id' conn₂ stream hconn₂ hsocket₂ with ⟨old₂, hold₂, hs₂⟩ | ⟨rfl, rfl⟩
      · exact h.sockets id id' old₁ old₂ stream hold₁ hold₂ hs₁ hs₂
      · exact absurd (hinv.socket_lt hold₁ hs₁) (Nat.lt_irrefl _)
    · rcases hslot id' conn₂ stream hconn₂ hsocket₂ with ⟨old₂, hold₂, hs₂⟩ | ⟨rfl, _⟩
      · subst hs₁
        exact absurd (hinv.socket_lt hold₂ hs₂) (Nat.lt_irrefl _)
      · rfl
  · intro c' task' stream htask' hstage'
    simp only [Sender.io, Function.update_apply] at htask'
    split at htask'
    case isTrue e =>
      cases htask'
      obtain ⟨htarget, rfl⟩ := advance_rewrite (Option.some.inj hstage')
      have hnone := hinv.writesOn_opened
      rw [Net.writesOn] at hnone ⊢
      rw [Sender.io, advance_written_of_none htarget, hnone]
    case isFalse hne =>
      have hnone := h.fresh c' task' stream htask' hstage'
      cases htarget : stage.target with
      | none =>
        rw [Net.writesOn] at hnone ⊢
        rw [Sender.io, advance_written_of_none htarget, hnone]
      | some stream' =>
        rw [Sender.io, advance_net_of_some htarget, Net.write_writesOn, hnone, List.nil_append,
          if_neg]
        -- two tasks at a write hold two locks, so they write on two streams
        rintro rfl
        obtain ⟨conn', hconn', _⟩ := hinv.worked.task c' task' htask'
        have hsame := h.sockets _ _ conn' conn stream' hconn' hconn
          (hinv.socket_of_target htask' hstage' rfl hconn')
          (hinv.socket_of_target htask hstage htarget hconn)
        exact hne (hinv.worked.running_unique htask htask' hsame hstage hstage' hrunning rfl)

/-- One event keeps the streams of the connections apart. -/
lemma apart_step (hlru : lru.Lawful find) {s s' : Sender L ε} {e} (hinv : s.Inv find) (h : s.Apart)
    (hstep : Step lru s e s') : s'.Apart := by
  cases hstep with
  | send => exact ⟨h.sockets, h.fresh⟩
  | evictSocket => exact ⟨h.sockets, h.fresh⟩
  | recvSend => exact ⟨h.sockets, h.fresh⟩
  | @spawn q hreceived =>
    rcases hinv.connected.spawn_cases hlru q with ⟨id, conn, _, _, _, _, _, e⟩ | ⟨_, _, _, e⟩
    · rw [e]
      refine h.update rfl ?_ rfl ?_
      · rintro stream ⟨⟩
      · exact fun _ _ _ hconn _ => hconn
    · rw [e]
      refine h.update rfl ?_ rfl ?_
      · rintro stream ⟨⟩
      · intro id conn stream hconn hsocket
        simp only [Function.update_apply] at hconn
        split at hconn
        case isTrue =>
          -- the slot of a new connection is empty
          cases hconn
          cases hsocket
        case isFalse => exact hconn
  | recvEvict => exact ⟨h.sockets, h.fresh⟩
  | remove => exact ⟨h.sockets, h.fresh⟩
  | @lock c task conn htask =>
    refine h.update rfl ?_ rfl ?_
    · intro stream hstage
      have e := Option.some.inj hstage
      cases hsocket : conn.socket with
      | none => rw [hsocket] at e; cases e
      | some => rw [hsocket] at e; cases e
    · exact fun _ _ _ hconn _ => hconn
  | io htask hstage hrunning hconn hcut => exact apart_io hinv h htask hstage hrunning hconn
  | @complete c task result htask =>
    refine ⟨h.sockets, ?_⟩
    intro c' task' stream htask' hstage'
    simp only [complete, Function.update_apply] at htask'
    split at htask'
    case isTrue => cases htask'
    case isFalse => exact h.fresh c' task' stream htask' hstage'

/-! ## The framing of all streams -/

/-- The first write of a send puts bytes on a stream on which a write was cut short. -/
def Reuses (s : Sender L ε) : Event ε → Prop
  | .io c io => ∃ task stream, s.tasks c = some task ∧ task.stage = some (.write stream) ∧
      s.net.Cut stream ∧ bytesPut io task.send.data ≠ 0
  | _ => False

/-- All streams of the sender hold whole frames, but possibly for the last write on each. -/
def AllFramed (s : Sender L ε) : Prop := ∀ stream, Framed (s.net.writesOn stream)

/-- An event keeps the framing exactly when it reuses no stream that was cut. -/
lemma allFramed_step_iff {s s' : Sender L ε} {e} (h : s.Apart) (hstep : Step lru s e s') :
    s'.AllFramed ↔ s.AllFramed ∧ ¬ s.Reuses e := by
  cases hstep with
  | send => simp [Reuses, AllFramed, send]
  | evictSocket => simp [Reuses, AllFramed, evictSocket]
  | recvSend => simp [Reuses, AllFramed, recvSend]
  | spawn => simp [Reuses, AllFramed, spawn]
  | recvEvict => simp [Reuses, AllFramed, recvEvict]
  | remove => simp [Reuses, AllFramed, remove]
  | lock => simp [Reuses, AllFramed, lock]
  | complete => simp [Reuses, AllFramed, complete]
  | @io c task stage conn io htask hstage hrunning hconn hcut =>
    have hreuses : s.Reuses (.io c io) ↔ ∃ stream, stage = .write stream ∧ s.net.Cut stream ∧
        bytesPut io task.send.data ≠ 0 := by
      constructor
      · rintro ⟨task', stream, htask', hstage', hcutStream, hput⟩
        rw [htask] at htask'
        cases htask'
        rw [hstage] at hstage'
        exact ⟨stream, Option.some.inj hstage', hcutStream, hput⟩
      · rintro ⟨stream, rfl, hcutStream, hput⟩
        exact ⟨task, stream, htask, hstage, hcutStream, hput⟩
    rw [hreuses]
    cases htarget : stage.target with
    | none =>
      have hsame : (s.io c task stage conn io).AllFramed ↔ s.AllFramed := by
        simp only [AllFramed, Net.writesOn, Sender.io, advance_written_of_none htarget]
      rw [hsame, iff_self_and]
      rintro _ ⟨stream, rfl, _⟩
      cases htarget
    | some stream =>
      have hwrite : (s.io c task stage conn io).AllFramed ↔
          s.AllFramed ∧ (bytesPut io task.send.data = 0 ∨ ¬ s.net.Cut stream) := by
        simp only [AllFramed, Sender.io, advance_net_of_some htarget]
        exact framed_write_iff
      rw [hwrite]
      refine and_congr_right fun _ => ?_
      cases stage with
      | connect => cases htarget
      | write =>
        cases htarget
        simp only [Stage.write.injEq, exists_eq_left']
        tauto
      | reconnect => cases htarget
      | rewrite =>
        cases htarget
        refine iff_of_true (.inr ?_) ?_
        · -- nothing was written on the stream of a second write
          rintro ⟨w, hw, _⟩
          rw [h.fresh c task stream htask hstage] at hw
          cases hw
        · rintro ⟨_, ⟨⟩, _⟩
      | done => cases htarget

/-- One event that reuses no stream. -/
def CleanStep (lru : LruCrate L) (s : Sender L ε) (e : Event ε) (s' : Sender L ε) : Prop :=
  Step lru s e s' ∧ ¬ s.Reuses e

/-- A run of clean steps is a run. -/
lemma CleanStep.run {s s' : Sender L ε} {es} (r : Run (CleanStep lru) s es s') :
    Run (Step lru) s es s' := by
  induction r with
  | refl => exact .refl
  | tail _ hstep ih => exact ih.tail hstep.1

/-- In every run the streams of the connections are apart. -/
lemma apart_run (hlru : lru.Lawful find) {useLru lruSize} {es : List (Event ε)} {s : Sender L ε}
    (r : Run (Step lru) (new (createConnections lru useLru lruSize)) es s) : s.Apart := by
  induction r with
  | refl => exact apart_new _
  | tail r hstep ih => exact apart_step hlru (inv_run hlru r) ih hstep

/-- Clean steps keep the framing. -/
lemma allFramed_of_clean (hlru : lru.Lawful find) {useLru lruSize} {es : List (Event ε)}
    {s : Sender L ε} (r : Run (CleanStep lru) (new (createConnections lru useLru lruSize)) es s) :
    s.AllFramed := by
  induction r with
  | refl => exact fun _ => framed_nil
  | tail r hstep ih =>
    exact (allFramed_step_iff (apart_run hlru (CleanStep.run r)) hstep.1).mpr ⟨ih, hstep.2⟩

/-- Streams that are framed at the end of a run were framed all along. -/
lemma clean_of_allFramed (hlru : lru.Lawful find) {useLru lruSize} {es : List (Event ε)}
    {s : Sender L ε} (r : Run (Step lru) (new (createConnections lru useLru lruSize)) es s)
    (h : s.AllFramed) : Run (CleanStep lru) (new (createConnections lru useLru lruSize)) es s := by
  induction r with
  | refl => exact .refl
  | tail r hstep ih =>
    obtain ⟨hframed, hclean⟩ := (allFramed_step_iff (apart_run hlru r) hstep).mp h
    exact (ih hframed).tail ⟨hstep, hclean⟩

end Sender

/-- **Framing of a sender.** In every run, whatever fails and in whatever order its tasks take their
    steps, the streams of all connections hold whole frames, each possibly with a proper prefix of
    one behind which nothing was put, exactly when no send began by writing on a stream on which
    another's write had been cut short. The second write of a send never does. -/
theorem framed_run_iff (hlru : lru.Lawful find) {useLru lruSize} {es : List (Event ε)}
    {s : Sender L ε}
    (r : Run (Step lru) (.new (createConnections lru useLru lruSize)) es s) :
    (s.AllFramed ↔
      Run (Sender.CleanStep lru) (.new (createConnections lru useLru lruSize)) es s) ∧
    (∀ c task stream, s.tasks c = some task → task.stage = some (.rewrite stream) →
      s.net.writesOn stream = []) ∧
    ∀ id id' conn conn' stream, s.connection id = some conn → s.connection id' = some conn' →
      conn.socket = some stream → conn'.socket = some stream → id = id' := by
  have hapart := Sender.apart_run hlru r
  exact ⟨⟨Sender.clean_of_allFramed hlru r, Sender.allFramed_of_clean hlru⟩, hapart.fresh,
    hapart.sockets⟩

/-- A send whose second write is cut short, and a send behind it on the same connection. -/
def reuseEvents : List (Event Unit) :=
  [.send sampleQueued, .send ⟨sampleAddr, [98], 1⟩, .recvSend, .spawn, .lock 0, .io 0 (.ok ()),
    .io 0 (.error ⟨(), 0⟩), .io 0 (.ok ()), .io 0 (.error ⟨(), 2⟩), .recvSend, .spawn, .lock 1,
    .io 1 (.ok ())]

/-- The framing is lost, so the run has a send that reuses a stream. -/
theorem framed_run_iff_reuseEvents : ∃ s : Sender (ℕ+ × List (SocketAddr × ℕ)) Unit,
    Run (Step listLru) (.new (createConnections listLru true 1)) reuseEvents s ∧
      ¬ Run (Sender.CleanStep listLru) (.new (createConnections listLru true 1)) reuseEvents s := by
  have hok : ∀ data, Io.CutsShort (.ok () : Io Unit) data := by
    rintro data fault ⟨⟩
  have hcut : ∀ put < 5, Io.CutsShort (.error ⟨(), put⟩ : Io Unit) [97] := by
    rintro put hput fault ⟨⟩
    exact hput
  have hrun : ∃ s : Sender (ℕ+ × List (SocketAddr × ℕ)) Unit,
      Run (Step listLru) (.new (createConnections listLru true 1)) reuseEvents s ∧
        s.net.written = [⟨0, 0, [97], 0⟩, ⟨1, 0, [97], 2⟩, ⟨1, 1, [98], 5⟩] := by
    refine ⟨_, ((((((((((((Run.refl.tail (.send List.not_mem_nil)).tail (.send ?_)).tail
      (.recvSend rfl rfl)).tail (.spawn rfl)).tail (.lock rfl rfl rfl rfl)).tail
      (.io rfl rfl rfl rfl (hok _))).tail (.io rfl rfl rfl rfl (hcut 0 (by decide)))).tail
      (.io rfl rfl rfl rfl (hok _))).tail (.io rfl rfl rfl rfl (hcut 2 (by decide)))).tail
      (.recvSend rfl rfl)).tail (.spawn rfl)).tail (.lock rfl rfl rfl rfl)).tail
      (.io rfl rfl rfl rfl (hok _)), rfl⟩
    exact fun h => absurd (List.mem_singleton.mp h) (by decide)
  obtain ⟨s, r, hwritten⟩ := hrun
  refine ⟨s, r, fun hclean => ?_⟩
  have hframed := (framed_run_iff lawful_listLru r).1.mpr hclean 1 ⟨1, 0, [97], 2⟩ ?_
  · exact absurd hframed (by decide)
  · rw [Net.writesOn, hwritten]
    exact List.mem_singleton_self _

end ShardusNet.Transport
