import ShardusNet.Transport.Streams
import ShardusNet.Wire.Delivery
/-!
# The sends a stream carries

The bytes of a stream as the frames of the sends whose whole writes are on it (`carried`). A stream
that is framed reads back as the data of these sends, wherever it is cut (`frames_bytesOn`), and a
send is carried once at most, over all streams (`Inv.carried_once`).
-/

namespace ShardusNet.Transport
open Wire ByteCodec Framing Runs

variable {L ε : Type*} {lru : LruCrate L} {find : L → SocketAddr → Option ℕ}

/-! ## Framed writes -/

/-- What a reader recovers from a piece of a framed stream. -/
lemma Framed.frames_take {ws : List Write} (h : Framed ws)
    (hws : ∀ w ∈ ws, w.put ≤ (frame w.data).length ∧ w.data.length < 2 ^ 32) (k) :
    frames ((ws.flatMap Write.bytes).take k) =
      (wholeData ws).take (wholeCount k (wholeData ws)) := by
  have hdata : ∀ x ∈ wholeData ws, x.length < 2 ^ 32 := by
    intro x hx
    obtain ⟨w, hw, rfl⟩ := List.mem_map.mp hx
    exact (hws w (List.mem_filter.mp hw).1).2
  obtain ⟨rest, e, hrest⟩ := h.bytes_eq fun w hw => (hws w hw).1
  rw [e]
  rcases hrest with rfl | ⟨w, hlast, hpiece, hne⟩
  · rw [List.append_nil]
    exact Framing.frames_take hdata k
  · have hw : w ∈ ws := (List.mem_filter.mp (List.mem_of_getLast? hlast)).1
    exact frames_take_append hdata (hws w hw).2 hpiece hne k

/-! ## Carried sends -/

namespace Sender

/-- The sends whose whole writes are on the stream, in order. -/
def carried (s : Sender L ε) (stream : ℕ) : List QueuedSend :=
  ((s.net.writesOn stream).filter (·.Whole)).filterMap fun w =>
    s.spawned.find? (·.completeTx = w.writer)

/-- A send that was spawned was queued. -/
lemma queued_of_spawned {s : Sender L ε} {q} (hq : q ∈ s.spawned) : q ∈ s.queued := by
  rw [queued, List.append_assoc]
  exact List.mem_append_left _ hq

/-- Each write is found to be one of the send that made it. -/
lemma Inv.find_writer {s : Sender L ε} (h : s.Inv find) {w} (hw : w ∈ s.net.written) :
    ∃ q ∈ s.spawned, s.spawned.find? (·.completeTx = w.writer) = some q ∧
      w.IsOf s.net q.completeTx q.data q.address := by
  obtain ⟨q, hq, hof⟩ := h.worked.written w hw
  obtain ⟨q', hq'⟩ : ∃ q', s.spawned.find? (·.completeTx = w.writer) = some q' := by
    rw [← Option.isSome_iff_exists, List.find?_isSome]
    exact ⟨q, hq, decide_eq_true hof.1.symm⟩
  have hmem := List.mem_of_find?_eq_some hq'
  have hnumber : q'.completeTx = w.writer := by simpa using List.find?_some hq'
  have e := List.inj_on_of_nodup_map h.queued.numbers (queued_of_spawned hmem) (queued_of_spawned hq)
    (hnumber.trans hof.1)
  exact ⟨q', hmem, hq', e ▸ hof⟩

/-- The data of the sends that a stream carries are those of the whole writes on it. -/
lemma Inv.carried_data {s : Sender L ε} (h : s.Inv find) (stream) :
    (s.carried stream).map QueuedSend.data = wholeData (s.net.writesOn stream) := by
  have hall : ∀ ws : List Write, (∀ w ∈ ws, w ∈ s.net.written) →
      (ws.filterMap fun w => s.spawned.find? (·.completeTx = w.writer)).map QueuedSend.data =
        ws.map Write.data := by
    intro ws hws
    induction ws with
    | nil => rfl
    | cons w ws ih =>
      obtain ⟨hw, hrest⟩ := List.forall_mem_cons.mp hws
      obtain ⟨q, _, hfind, hof⟩ := h.find_writer hw
      rw [List.filterMap_cons, hfind]
      simp only [List.map_cons, ih hrest, hof.2.1]
  refine hall _ ?_
  intro w hw
  exact (List.mem_filter.mp (List.mem_filter.mp hw).1).1

/-- A framed stream reads back as the data of the sends it carries, wherever it is cut. -/
lemma Inv.frames_bytesOn {s : Sender L ε} (h : s.Inv find) (hframed : s.AllFramed)
    (hdata : ∀ q ∈ s.queued, q.data.length < 2 ^ 32) (stream k) :
    frames ((s.net.bytesOn stream).take k) =
      ((s.carried stream).map QueuedSend.data).take
        (wholeCount k ((s.carried stream).map QueuedSend.data)) := by
  rw [h.carried_data, Net.bytesOn]
  apply (hframed stream).frames_take
  intro w hw
  obtain ⟨q, hspawned, _, hof⟩ := h.find_writer (List.mem_filter.mp hw).1
  obtain ⟨_, e, hput, _⟩ := hof
  rw [e]
  exact ⟨hput, hdata q (queued_of_spawned hspawned)⟩

/-- All the frames of the sends a stream carries lie within its bytes. -/
lemma Inv.wholeCount_bytesOn {s : Sender L ε} (h : s.Inv find) (hframed : s.AllFramed) (stream) :
    wholeCount (s.net.bytesOn stream).length ((s.carried stream).map QueuedSend.data) =
      (s.carried stream).length := by
  have hlen : ((s.carried stream).map QueuedSend.data).length = (s.carried stream).length :=
    List.length_map _
  rw [← hlen, h.carried_data]
  apply Nat.le_antisymm (le_wholeCount.mp (Nat.le_refl _)).1
  rw [le_wholeCount, List.take_length]
  refine ⟨Nat.le_refl _, ?_⟩
  obtain ⟨rest, e, _⟩ := (hframed stream).bytes_eq fun w hw => by
    obtain ⟨q, _, _, _, e, hput, _⟩ := h.find_writer (List.mem_filter.mp hw).1
    rw [e]
    exact hput
  rw [Net.bytesOn, e, List.length_append]
  exact Nat.le_add_right _ _

/-- A send is carried by the streams on which it made a whole write. -/
lemma Inv.mem_carried {s : Sender L ε} (h : s.Inv find) {q stream} :
    q ∈ s.carried stream ↔
      q ∈ s.spawned ∧ ∃ w ∈ s.net.writesOf q.completeTx, w.Whole ∧ w.stream = stream := by
  constructor
  · intro hq
    obtain ⟨w, hw, hfind⟩ := List.mem_filterMap.mp hq
    obtain ⟨hwritten, hwhole⟩ := List.mem_filter.mp hw
    obtain ⟨hmem, hstream⟩ := List.mem_filter.mp hwritten
    obtain ⟨q', hspawned, hfind', hof⟩ := h.find_writer hmem
    rw [hfind] at hfind'
    cases hfind'
    exact ⟨hspawned, w, List.mem_filter.mpr ⟨hmem, decide_eq_true hof.1⟩, of_decide_eq_true hwhole,
      of_decide_eq_true hstream⟩
  · rintro ⟨hq, w, hw, hwhole, rfl⟩
    obtain ⟨hmem, hwriter⟩ := List.mem_filter.mp hw
    obtain ⟨q', hspawned, hfind, hof⟩ := h.find_writer hmem
    have hnumber : q'.completeTx = q.completeTx := hof.1.symm.trans (of_decide_eq_true hwriter)
    have e := List.inj_on_of_nodup_map h.queued.numbers (queued_of_spawned hspawned)
      (queued_of_spawned hq) hnumber
    refine List.mem_filterMap.mpr ⟨w, List.mem_filter.mpr ⟨?_, decide_eq_true hwhole⟩, e ▸ hfind⟩
    exact List.mem_filter.mpr ⟨hmem, decide_eq_true rfl⟩

/-- A send makes one whole write at most. -/
lemma Inv.whole_le_one {s : Sender L ε} (h : s.Inv find) (c) :
    ((s.net.writesOf c).filter (·.Whole)).length ≤ 1 := by
  have hsettled : ∀ result : SendResult ε, Settled s.net c result →
      ((s.net.writesOf c).filter (·.Whole)).length ≤ 1 := by
    rintro result ⟨_, hresult⟩
    cases result with
    | ok =>
      obtain ⟨w, e⟩ := hresult
      rw [e, List.length_singleton]
    | error =>
      have hnone : (s.net.writesOf c).filter (·.Whole) = [] := by
        rw [List.filter_eq_nil_iff]
        exact fun w hw hwhole => hresult w hw (of_decide_eq_true hwhole)
      rw [hnone]
      exact Nat.zero_le 1
  have hfew : (s.net.writesOf c).length ≤ 1 → ((s.net.writesOf c).filter (·.Whole)).length ≤ 1 :=
    fun hlen => Nat.le_trans (List.length_filter_le _ _) hlen
  by_cases hspawned : c ∈ s.spawned.map QueuedSend.completeTx
  · rcases (h.queued.placed c).mp hspawned with htask | hresult
    · obtain ⟨task, htask⟩ := Option.ne_none_iff_exists'.mp htask
      obtain ⟨conn, _, hat⟩ := h.worked.task c task htask
      cases hstage : task.stage with
      | none =>
        apply hfew
        rw [hat.waiting hstage]
        exact Nat.zero_le 1
      | some stage =>
        have hwrote := hat.wrote stage hstage
        cases stage with
        | connect =>
          apply hfew
          rw [hwrote.2]
          exact Nat.zero_le 1
        | write =>
          apply hfew
          rw [hwrote.2]
          exact Nat.zero_le 1
        | reconnect =>
          obtain ⟨_, w, e, _⟩ := hwrote
          apply hfew
          rw [e, List.length_singleton]
        | rewrite =>
          obtain ⟨_, w, e, _⟩ := hwrote
          apply hfew
          rw [e, List.length_singleton]
        | done result => exact hsettled result hwrote
    · obtain ⟨⟨_, result⟩, hmem, rfl⟩ := List.mem_map.mp hresult
      exact hsettled result (h.worked.results _ _ hmem)
  · apply hfew
    rw [h.worked.writesOf_eq_nil hspawned]
    exact Nat.zero_le 1

/-- Two whole writes of a send are one. -/
lemma Inv.whole_unique {s : Sender L ε} (h : s.Inv find) {c w w'} (hw : w ∈ s.net.writesOf c)
    (hw' : w' ∈ s.net.writesOf c) (hwhole : w.Whole) (hwhole' : w'.Whole) : w = w' := by
  have hmem : w ∈ (s.net.writesOf c).filter (·.Whole) := List.mem_filter.mpr ⟨hw, decide_eq_true hwhole⟩
  have hmem' : w' ∈ (s.net.writesOf c).filter (·.Whole) :=
    List.mem_filter.mpr ⟨hw', decide_eq_true hwhole'⟩
  have hone := h.whole_le_one c
  generalize (s.net.writesOf c).filter (·.Whole) = ws at hmem hmem' hone
  match ws, hone with
  | [x], _ => rw [List.mem_singleton.mp hmem, List.mem_singleton.mp hmem']

/-- A send is carried once at most: by one stream, and once by it. -/
lemma Inv.carried_once {s : Sender L ε} (h : s.Inv find) :
    (∀ stream, (s.carried stream).Nodup) ∧
      ∀ {q stream stream'}, q ∈ s.carried stream → q ∈ s.carried stream' → stream = stream' := by
  refine ⟨fun stream => ?_, ?_⟩
  · rw [List.nodup_iff_count_le_one]
    intro q
    have hone := h.whole_le_one q.completeTx
    rw [← List.countP_eq_length_filter, Net.writesOf, List.countP_filter] at hone
    rw [carried, Net.writesOn, List.count_filterMap, List.countP_filter, List.countP_filter]
    refine Nat.le_trans (List.countP_mono_left fun w _ hw => ?_) hone
    -- a write of the stream that is found to be one of `q` is a whole write of `q`
    simp only [Bool.and_eq_true, decide_eq_true_eq, beq_iff_eq] at hw ⊢
    obtain ⟨⟨hfind, hwhole⟩, _⟩ := hw
    have hnumber : q.completeTx = w.writer := by simpa using List.find?_some hfind
    exact ⟨hwhole, hnumber.symm⟩
  · intro q stream stream' hq hq'
    obtain ⟨_, w, hw, hwhole, rfl⟩ := h.mem_carried.mp hq
    obtain ⟨_, w', hw', hwhole', rfl⟩ := h.mem_carried.mp hq'
    rw [h.whole_unique hw hw' hwhole hwhole']

/-- A send is carried by a stream to its own address. -/
lemma Inv.opened_of_carried {s : Sender L ε} (h : s.Inv find) {q stream}
    (hq : q ∈ s.carried stream) :
    s.net.opened[stream]? = some q.address := by
  obtain ⟨hspawned, w, hw, _, rfl⟩ := h.mem_carried.mp hq
  exact (h.isOf (queued_of_spawned hspawned) w hw).2.2.2

/-- The results of a send are those with its number. -/
lemma mem_resultsOf {s : Sender L ε} {c result} :
    result ∈ s.resultsOf c ↔ (c, result) ∈ s.results := by
  simp only [resultsOf, List.mem_map, List.mem_filter, decide_eq_true_eq]
  constructor
  · rintro ⟨⟨_, _⟩, ⟨hmem, rfl⟩, rfl⟩
    exact hmem
  · intro hmem
    exact ⟨(c, result), ⟨hmem, rfl⟩, rfl⟩

/-- A send with the result `Ok` is carried. -/
lemma Inv.carried_of_ok {s : Sender L ε} (h : s.Inv find) {q} (hq : q ∈ s.queued)
    (hok : .ok () ∈ s.resultsOf q.completeTx) : ∃ stream, q ∈ s.carried stream := by
  have hresult := mem_resultsOf.mp hok
  obtain ⟨_, w, hw⟩ := h.worked.results _ _ hresult
  obtain ⟨hmem, hwhole⟩ := List.mem_filter.mp (hw ▸ List.mem_singleton_self w)
  have hspawned := (h.queued.placed q.completeTx).mpr (.inr (List.mem_map_of_mem hresult))
  obtain ⟨q', hq', hnumber⟩ := List.mem_map.mp hspawned
  have e := List.inj_on_of_nodup_map h.queued.numbers (queued_of_spawned hq') hq hnumber
  exact ⟨w.stream, h.mem_carried.mpr ⟨e ▸ hq', w, hmem, of_decide_eq_true hwhole, rfl⟩⟩

/-- A send with the result `Err` is not carried. -/
lemma Inv.not_carried_of_error {s : Sender L ε} (h : s.Inv find) {q err}
    (herr : .error err ∈ s.resultsOf q.completeTx) (stream) : q ∉ s.carried stream := by
  intro hq
  obtain ⟨_, w, hw, hwhole, _⟩ := h.mem_carried.mp hq
  exact (h.worked.results _ _ (mem_resultsOf.mp herr)).2 w hw hwhole

end Sender

end ShardusNet.Transport
