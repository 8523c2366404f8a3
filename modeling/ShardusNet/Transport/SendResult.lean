import ShardusNet.Transport.SenderInv
import Mathlib.Algebra.Order.BigOperators.Group.List
/-!
# Results of sends

What a caller of the sender may take from the result of a send, over every run: `Ok` means that one
write put its whole frame on one stream to its own address, `Err` that no stream has its whole frame
(`sendResult`). Every send gets one result: never two, every step of a task brings the sender closer
to its end (`remaining_lt`), and it ends only when every send has its result (`results_of_idle`).
-/

namespace ShardusNet.Transport
open Wire ByteCodec Framing Runs

variable {L ε : Type*} {lru : LruCrate L} {find : L → SocketAddr → Option ℕ}

/-- One entry of a list has a key that no two entries share. -/
lemma filter_eq_singleton {α β : Type*} [DecidableEq β] {f : α → β} {l : List α} (h : (l.map f).Nodup)
    {a} (ha : a ∈ l) : l.filter (f · = f a) = [a] := by
  induction l with
  | nil => cases ha
  | cons b l ih =>
    rw [List.map_cons, List.nodup_cons] at h
    rcases List.mem_cons.mp ha with rfl | ha
    · have hnone : l.filter (f · = f a) = [] := by
        rw [List.filter_eq_nil_iff]
        intro b hb e
        exact h.1 (of_decide_eq_true e ▸ List.mem_map_of_mem hb)
      rw [List.filter_cons_of_pos (by simp), hnone]
    · have hne : f b ≠ f a := fun e => h.1 (e ▸ List.mem_map_of_mem ha)
      rw [List.filter_cons_of_neg (by simp [hne]), ih h.2 ha]

/-! ## What streams received -/

/-- The bytes of a send on a stream. -/
def Net.bytesFrom (net : Net) (stream c : ℕ) : Bytes :=
  ((net.writesOf c).filter (·.stream = stream)).flatMap Write.bytes

/-- The send's complete frame was written by exactly one write, on exactly one stream, to its own
    address. -/
def Net.Delivered (net : Net) (q : QueuedSend) : Prop :=
  ∃ w, (net.writesOf q.completeTx).filter (·.Whole) = [w] ∧ w.data = q.data ∧
    net.opened[w.stream]? = some q.address ∧
    ∀ stream, net.bytesFrom stream q.completeTx = frame q.data ↔ stream = w.stream

/-- No stream received the complete frame of the send. -/
def Net.Undelivered (net : Net) (q : QueuedSend) : Prop :=
  ∀ stream, net.bytesFrom stream q.completeTx ≠ frame q.data

/-- A write of a send that is whole, and only such a one, puts the frame. -/
lemma Write.IsOf.bytes_eq_iff {w : Write} {net c data address} (h : w.IsOf net c data address) :
    w.bytes = frame data ↔ w.Whole := by
  obtain ⟨_, rfl, hput, _⟩ := h
  constructor
  · intro e
    have hlen := congrArg List.length e
    rw [Write.bytes, List.length_take, Nat.min_eq_left hput] at hlen
    exact hlen
  · intro hwhole
    have hlen : w.put = (frame w.data).length := hwhole
    rw [Write.bytes, hlen, List.take_length]

/-- A stream received the frame exactly when a whole write went to it. -/
lemma bytesFrom_eq_frame_iff {net : Net} {c data address}
    (hof : ∀ w ∈ net.writesOf c, w.IsOf net c data address)
    (hnodup : ((net.writesOf c).map Write.stream).Nodup) {stream} :
    net.bytesFrom stream c = frame data ↔ ∃ w ∈ net.writesOf c, w.stream = stream ∧ w.Whole := by
  have hone : ∀ w ∈ net.writesOf c, w.stream = stream → net.bytesFrom stream c = w.bytes := by
    rintro w hmem rfl
    rw [Net.bytesFrom, filter_eq_singleton hnodup hmem, List.flatMap_singleton]
  constructor
  · intro e
    -- the frame is not empty, so some write went to the stream
    have hsome : ∃ w ∈ net.writesOf c, w.stream = stream := by
      by_contra hnone
      have hnil : (net.writesOf c).filter (·.stream = stream) = [] := by
        rw [List.filter_eq_nil_iff]
        exact fun w hmem hw => hnone ⟨w, hmem, of_decide_eq_true hw⟩
      have hlen := congrArg List.length e
      rw [Net.bytesFrom, hnil, List.flatMap_nil, length_frame] at hlen
      exact absurd hlen.symm (Nat.succ_ne_zero _)
    obtain ⟨w, hmem, hw⟩ := hsome
    exact ⟨w, hmem, hw, (hof w hmem).bytes_eq_iff.mp ((hone w hmem hw).symm.trans e)⟩
  · rintro ⟨w, hmem, hw, hwhole⟩
    exact (hone w hmem hw).trans ((hof w hmem).bytes_eq_iff.mpr hwhole)

/-- A result is right about what streams received. -/
lemma delivered_of_settled {net : Net} {q : QueuedSend} {result : SendResult ε}
    (hof : ∀ w ∈ net.writesOf q.completeTx, w.IsOf net q.completeTx q.data q.address)
    (h : Settled net q.completeTx result) :
    (result = .ok () → net.Delivered q) ∧ (∀ e, result = .error e → net.Undelivered q) := by
  obtain ⟨hnodup, h⟩ := h
  constructor
  · rintro rfl
    obtain ⟨w, hw⟩ := h
    obtain ⟨hmem, hwhole⟩ : w ∈ net.writesOf q.completeTx ∧ w.Whole := by
      have hmem : w ∈ (net.writesOf q.completeTx).filter (·.Whole) := hw ▸ List.mem_singleton_self w
      exact ⟨(List.mem_filter.mp hmem).1, of_decide_eq_true (List.mem_filter.mp hmem).2⟩
    obtain ⟨_, hdata, _, hopened⟩ := hof w hmem
    refine ⟨w, hw, hdata, hopened, fun stream => ?_⟩
    rw [bytesFrom_eq_frame_iff hof hnodup]
    constructor
    · rintro ⟨x, hx, rfl, hxwhole⟩
      have hx' : x ∈ (net.writesOf q.completeTx).filter (·.Whole) :=
        List.mem_filter.mpr ⟨hx, decide_eq_true hxwhole⟩
      rw [hw, List.mem_singleton] at hx'
      rw [hx']
    · rintro rfl
      exact ⟨w, hmem, rfl, hwhole⟩
  · rintro e rfl stream heq
    obtain ⟨w, hmem, _, hwhole⟩ := (bytesFrom_eq_frame_iff hof hnodup).mp heq
    exact h w hmem hwhole

/-! ## How a sender comes to an end -/

/-- How many steps a send that holds the lock may still take. -/
def Stage.remaining : Stage ε → ℕ
  | .connect => 5
  | .write _ => 4
  | .reconnect => 3
  | .rewrite _ => 2
  | .done _ => 1

/-- How many steps a task may still take. -/
def Task.remaining (task : Task ε) : ℕ :=
  match task.stage with
  | none => 6
  | some stage => stage.remaining

/-- A task that gets the lock has fewer steps left than one that waits. -/
lemma Stage.remaining_start (socket : Option ℕ) : (Stage.start socket : Stage ε).remaining < 6 := by
  cases socket with
  | none => exact (by decide : 5 < 6)
  | some stream => exact (by decide : 4 < 6)

/-- Every operation is one step less. -/
lemma Stage.remaining_advance {address data c} {io : Io ε} {stage : Stage ε} {socket net}
    (hrunning : stage.returned = false) :
    (stage.advance address data c io socket net).1.remaining < stage.remaining := by
  cases stage with
  | connect =>
    cases io with
    | ok => exact (by decide : 4 < 5)
    | error => exact (by decide : 1 < 5)
  | write stream =>
    cases io with
    | ok => exact (by decide : 1 < 4)
    | error => exact (by decide : 3 < 4)
  | reconnect =>
    cases io with
    | ok => exact (by decide : 2 < 3)
    | error => exact (by decide : 1 < 3)
  | rewrite stream => cases io <;> exact (by decide : 1 < 2)
  | done result => cases hrunning

namespace Sender

/-- How many steps the tasks may still take. -/
def remaining (s : Sender L ε) : ℕ :=
  8 * s.sendChannel.length + 7 * s.received.toList.length +
    (s.spawned.map fun q => ((s.tasks q.completeTx).map Task.remaining).getD 0).sum +
    2 * s.evictSocketChannel.length + s.evicting.toList.length

/-- A task that moves on, or ends, leaves fewer steps. -/
lemma sum_update_lt {s : Sender L ε} (h : s.Worked) {c task} (htask : s.tasks c = some task)
    (task' : Option (Task ε)) (hlt : (task'.map Task.remaining).getD 0 < task.remaining) :
    (s.spawned.map fun q =>
        ((Function.update s.tasks c task' q.completeTx).map Task.remaining).getD 0).sum <
      (s.spawned.map fun q => ((s.tasks q.completeTx).map Task.remaining).getD 0).sum := by
  have hc : ∀ q : QueuedSend, q.completeTx = c →
      ((Function.update s.tasks c task' q.completeTx).map Task.remaining).getD 0 <
        ((s.tasks q.completeTx).map Task.remaining).getD 0 := by
    rintro q rfl
    rw [Function.update_self, htask]
    exact hlt
  apply List.sum_lt_sum
  · intro q _
    by_cases e : q.completeTx = c
    · exact Nat.le_of_lt (hc q e)
    · rw [Function.update_of_ne e]
  · obtain ⟨hmem, hnumber⟩ := h.sent c task htask
    exact ⟨task.send, hmem, hc task.send hnumber⟩

/-- Every step of a task brings the sender closer to its end. -/
lemma remaining_lt {s s' : Sender L ε} {e} (h : s.Inv find) (hstep : Step lru s e s')
    (hint : e.Internal) : s'.remaining < s.remaining := by
  cases hstep with
  | send => exact hint.elim
  | evictSocket => exact hint.elim
  | recvSend hchannel hfree =>
    simp only [remaining, recvSend, hchannel, hfree, List.length_cons, Option.toList_none,
      Option.toList_some, List.length_nil]
    omega
  | @spawn q hreceived =>
    have hsame : (s.spawned.map fun q' =>
        (((s.spawn lru q).tasks q'.completeTx).map Task.remaining).getD 0) =
        s.spawned.map fun q' => ((s.tasks q'.completeTx).map Task.remaining).getD 0 := by
      apply List.map_congr_left
      intro q' hmem
      have hne : q'.completeTx ≠ q.completeTx := fun e =>
        h.queued.not_spawned hreceived (e ▸ List.mem_map_of_mem hmem)
      simp only [spawn, Function.update_of_ne hne]
    have hnew : (((s.spawn lru q).tasks q.completeTx).map Task.remaining).getD 0 = 6 := by
      simp [spawn, Task.remaining]
    have hspawned : (s.spawn lru q).spawned = s.spawned ++ [q] := rfl
    rw [remaining, hspawned, List.map_append, List.map_singleton, List.sum_append, List.sum_singleton,
      hsame, hnew]
    simp only [remaining, spawn, hreceived, Option.toList_none, Option.toList_some, List.length_nil,
      List.length_singleton]
    omega
  | recvEvict hchannel hfree =>
    simp only [remaining, recvEvict, hchannel, hfree, List.length_cons, Option.toList_none,
      Option.toList_some, List.length_nil]
    omega
  | remove hevicting =>
    simp only [remaining, remove, hevicting, Option.toList_none, Option.toList_some, List.length_nil,
      List.length_singleton]
    omega
  | @lock c task conn htask hwaiting hconn hfree =>
    have hlt := sum_update_lt h.worked htask (some { task with stage := some (.start conn.socket) })
      (by simpa [Task.remaining, hwaiting] using Stage.remaining_start conn.socket)
    simp only [remaining, lock]
    omega
  | @io c task stage conn io htask hstage hrunning hconn hcut =>
    have hlt := sum_update_lt h.worked htask (some { task with
        stage := some (stage.advance conn.address task.send.data c io conn.socket s.net).1 })
      (by simpa [Task.remaining, hstage] using Stage.remaining_advance hrunning)
    simp only [remaining, Sender.io]
    omega
  | @complete c task result htask hdone =>
    have hlt := sum_update_lt h.worked htask none
      (by simp [Task.remaining, hdone, Stage.remaining])
    simp only [remaining, complete]
    omega

/-- No task can take a step. -/
def Idle (lru : LruCrate L) (s : Sender L ε) : Prop := ∀ e s', Step lru s e s' → ¬ e.Internal

/-- A task that runs can go on. -/
lemma not_idle_of_running {s : Sender L ε} (h : s.Worked) {c task stage} (htask : s.tasks c = some task)
    (hstage : task.stage = some stage) (hrunning : stage.returned = false) : ¬ s.Idle lru := by
  obtain ⟨conn, hconn, _⟩ := h.task c task htask
  intro hidle
  refine hidle (.io c (.ok ())) _ (.io htask hstage hrunning hconn ?_) trivial
  rintro fault ⟨⟩

/-- A sender that is idle has no tasks left. -/
lemma no_task_of_idle {s : Sender L ε} (h : s.Worked) (hidle : s.Idle lru) (c) : s.tasks c = none := by
  by_contra hne
  obtain ⟨task, htask⟩ := Option.ne_none_iff_exists'.mp hne
  cases hstage : task.stage with
  | none =>
    -- it waits for a lock: either it is free, or who holds it can go on
    obtain ⟨conn, hconn, _⟩ := h.task c task htask
    cases hholder : s.holder task.connection with
    | none => exact hidle (.lock c) _ (.lock htask hstage hconn hholder) trivial
    | some c' =>
      obtain ⟨task', stage, htask', _, hstage', hrunning⟩ := h.held _ c' hholder
      exact not_idle_of_running h htask' hstage' hrunning hidle
  | some stage =>
    cases hreturned : stage.returned with
    | false => exact not_idle_of_running h htask hstage hreturned hidle
    | true =>
      cases stage with
      | done result => exact hidle (.complete c) _ (.complete htask hstage) trivial
      | connect => cases hreturned
      | write => cases hreturned
      | reconnect => cases hreturned
      | rewrite => cases hreturned

/-- A sender that is idle has given every send its result. -/
lemma results_of_idle {s : Sender L ε} (h : s.Inv find) (hidle : s.Idle lru) {q} (hq : q ∈ s.queued) :
    q.completeTx ∈ s.results.map Prod.fst := by
  have hreceived : s.received = none := by
    by_contra hne
    obtain ⟨q', hq'⟩ := Option.ne_none_iff_exists'.mp hne
    exact hidle .spawn _ (.spawn hq') trivial
  have hchannel : s.sendChannel = [] := by
    by_contra hne
    obtain ⟨q', rest, hq'⟩ := List.exists_cons_of_ne_nil hne
    exact hidle .recvSend _ (.recvSend hq' hreceived) trivial
  have hmem : q ∈ s.spawned := by simpa [queued, hreceived, hchannel] using hq
  rcases (h.queued.placed q.completeTx).mp (List.mem_map_of_mem hmem) with htask | hresult
  · exact absurd (no_task_of_idle h.worked hidle q.completeTx) htask
  · exact hresult

/-- The results that a send got. -/
def resultsOf (s : Sender L ε) (c : ℕ) : List (SendResult ε) :=
  (s.results.filter (·.1 = c)).map Prod.snd

/-- A send has no result or one. -/
lemma resultsOf_cases {s : Sender L ε} (h : s.Queued) (c) :
    (c ∉ s.results.map Prod.fst ∧ s.resultsOf c = []) ∨
      ∃ result, (c, result) ∈ s.results ∧ s.resultsOf c = [result] := by
  by_cases hmem : c ∈ s.results.map Prod.fst
  · obtain ⟨⟨_, result⟩, hresult, rfl⟩ := List.mem_map.mp hmem
    refine .inr ⟨result, hresult, ?_⟩
    rw [resultsOf, filter_eq_singleton h.once hresult]
    rfl
  · refine .inl ⟨hmem, ?_⟩
    rw [resultsOf, List.map_eq_nil_iff, List.filter_eq_nil_iff]
    exact fun p hp e => hmem (of_decide_eq_true e ▸ List.mem_map_of_mem hp)

/-- The writes under the number of a send are its own. -/
lemma Inv.isOf {s : Sender L ε} (h : s.Inv find) {q} (hq : q ∈ s.queued) :
    ∀ w ∈ s.net.writesOf q.completeTx, w.IsOf s.net q.completeTx q.data q.address := by
  intro w hmem
  obtain ⟨hw, hwriter⟩ := List.mem_filter.mp hmem
  obtain ⟨q', hq', hof⟩ := h.worked.written w hw
  have hqueued : q' ∈ s.queued := by
    rw [Sender.queued, List.append_assoc]
    exact List.mem_append_left _ hq'
  have e : q'.completeTx = q.completeTx := hof.1.symm.trans (of_decide_eq_true hwriter)
  rw [List.inj_on_of_nodup_map h.queued.numbers hqueued hq e] at hof
  exact hof

end Sender

/-- **Results.** In every run of a sender, whatever its cache, whatever fails and in whatever order
    its tasks take their steps, each queued send gets at most one result. With `Ok` its complete
    frame was written by exactly one write, on exactly one stream to its own address; with `Err` no
    stream received it. Every step of a task brings the sender closer to its end, and when no task
    can take a step each queued send has exactly one result. -/
theorem sendResult (hlru : lru.Lawful find) {useLru lruSize} {es : List (Event ε)} {s : Sender L ε}
    (r : Run (Step lru) (.new (createConnections lru useLru lruSize)) es s) :
    (∀ q ∈ s.queued, (s.resultsOf q.completeTx).length ≤ 1 ∧
      (.ok () ∈ s.resultsOf q.completeTx → s.net.Delivered q) ∧
      ∀ e, .error e ∈ s.resultsOf q.completeTx → s.net.Undelivered q) ∧
    (∀ e s', Step lru s e s' → e.Internal → s'.remaining < s.remaining) ∧
    (s.Idle lru → ∀ q ∈ s.queued, (s.resultsOf q.completeTx).length = 1) := by
  have h : s.Inv find := Sender.inv_run hlru r
  refine ⟨?_, fun e s' => Sender.remaining_lt h, ?_⟩
  · intro q hq
    rcases Sender.resultsOf_cases h.queued q.completeTx with ⟨_, e⟩ | ⟨result, hresult, e⟩
    · simp [e]
    · obtain ⟨hok, herror⟩ := delivered_of_settled (h.isOf hq) (h.worked.results _ _ hresult)
      rw [e]
      refine ⟨Nat.le_refl 1, ?_, ?_⟩
      · intro hmem
        exact hok (List.mem_singleton.mp hmem).symm
      · intro err hmem
        exact herror err (List.mem_singleton.mp hmem).symm
  · intro hidle q hq
    rcases Sender.resultsOf_cases h.queued q.completeTx with ⟨hnone, _⟩ | ⟨_, _, e⟩
    · exact absurd (Sender.results_of_idle h hidle hq) hnone
    · rw [e]
      rfl

/-- A send of one byte. -/
def sampleQueued : QueuedSend := ⟨sampleAddr, [97], 0⟩

/-- A run in which the first write of the send fails. -/
def sampleEvents : List (Event Unit) :=
  [.send sampleQueued, .recvSend, .spawn, .lock 0, .io 0 (.ok ()), .io 0 (.error ⟨(), 2⟩), .io 0 (.ok ()),
    .io 0 (.ok ()), .complete 0]

/-- The send is delivered nevertheless. -/
theorem sendResult_sampleEvents : ∃ s : Sender (ℕ+ × List (SocketAddr × ℕ)) Unit,
    Run (Step listLru) (.new (createConnections listLru true 1)) sampleEvents s ∧
      s.resultsOf 0 = [.ok ()] ∧ s.net.Delivered sampleQueued := by
  have hok : Io.CutsShort (.ok () : Io Unit) [97] := by
    rintro fault ⟨⟩
  have hcut : Io.CutsShort (.error ⟨(), 2⟩ : Io Unit) [97] := by
    rintro fault ⟨⟩
    decide
  have hrun : ∃ s : Sender (ℕ+ × List (SocketAddr × ℕ)) Unit,
      Run (Step listLru) (.new (createConnections listLru true 1)) sampleEvents s ∧
        s.resultsOf 0 = [.ok ()] ∧ sampleQueued ∈ s.queued := by
    refine ⟨_, ((((((((Run.refl.tail (.send List.not_mem_nil)).tail (.recvSend rfl rfl)).tail (.spawn rfl)).tail
      (.lock rfl rfl rfl rfl)).tail (.io rfl rfl rfl rfl hok)).tail (.io rfl rfl rfl rfl hcut)).tail
      (.io rfl rfl rfl rfl hok)).tail (.io rfl rfl rfl rfl hok)).tail (.complete rfl rfl), ?_, ?_⟩
    · rfl
    · exact List.mem_singleton.mpr rfl
  obtain ⟨s, r, hresults, hq⟩ := hrun
  have h := (sendResult lawful_listLru r).1 sampleQueued hq
  refine ⟨s, r, hresults, h.2.1 ?_⟩
  show .ok () ∈ s.resultsOf 0
  rw [hresults]
  exact List.mem_singleton_self _

end ShardusNet.Transport
