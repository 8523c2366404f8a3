import ShardusNet.Transport.Connection
/-!
# Framing under failures

What the sends on one connection leave on each stream, whatever fails.

The first write of a send that fails gives up its stream. The second does not: it leaves its stream
in the slot, and the next send writes on, behind a piece of a frame. `framed_iff` says that nothing
else breaks the framing, and `retryCut_of_cut` that a cut stream in the slot is always one that a
second write has left there.
-/

namespace ShardusNet.Transport
open Wire ByteCodec Framing

variable {ε : Type*}

/-- Every write that put bytes is whole, but possibly the last. -/
def Framed (ws : List Write) : Prop := ∀ w ∈ (ws.filter (0 < ·.put)).dropLast, w.Whole

/-- A write on the stream was cut short. -/
def Net.Cut (net : Net) (stream : ℕ) : Prop := ∃ w ∈ net.writesOn stream, 0 < w.put ∧ ¬ w.Whole

/-- Without writes the framing holds. -/
lemma framed_nil : Framed [] := by
  intro w h
  cases h

/-- Writes stay framed behind whole ones only, or when they put nothing. -/
lemma framed_append {ws : List Write} {w : Write} :
    Framed (ws ++ [w]) ↔ Framed ws ∧ (w.put = 0 ∨ ∀ x ∈ ws, 0 < x.put → x.Whole) := by
  by_cases hw : w.put = 0
  · have e : (ws ++ [w]).filter (0 < ·.put) = ws.filter (0 < ·.put) := by
      simp [List.filter_append, hw]
    simp only [Framed, e, hw, true_or, and_true]
  · have e : (ws ++ [w]).filter (0 < ·.put) = ws.filter (0 < ·.put) ++ [w] := by
      simp [List.filter_append, Nat.pos_of_ne_zero hw]
    simp only [Framed, e, List.dropLast_concat, hw, false_or, List.mem_filter, decide_eq_true_eq,
      and_imp]
    constructor
    · intro h
      exact ⟨fun x hx => h x (List.mem_filter.mp (List.dropLast_subset _ hx)).1
        (by simpa using (List.mem_filter.mp (List.dropLast_subset _ hx)).2), h⟩
    · exact And.right

/-- The data of the writes that are whole. -/
def wholeData (ws : List Write) : List Bytes := (ws.filter (·.Whole)).map Write.data

/-- One write more adds its data when it is whole. -/
lemma wholeData_append (ws : List Write) (w : Write) :
    wholeData (ws ++ [w]) = wholeData ws ++ if w.Whole then [w.data] else [] := by
  by_cases h : w.Whole <;> simp [wholeData, h]

/-- Writes that put nothing or all put the frames of those that are whole. -/
lemma bytes_eq_of_whole {ws : List Write} (h : ∀ x ∈ ws, 0 < x.put → x.Whole) :
    ws.flatMap Write.bytes = ((wholeData ws).map frame).flatten := by
  induction ws using List.reverseRecOn with
  | nil => rfl
  | append_singleton ws w ih =>
    rw [List.flatMap_append, List.flatMap_singleton, wholeData_append, List.map_append,
      List.flatten_append, ih fun x hx => h x (List.mem_append_left _ hx)]
    by_cases hw : w.Whole
    · have hput : w.put = (frame w.data).length := hw
      simp [hw, Write.bytes, hput]
    · have hput : w.put = 0 := by
        by_contra hne
        exact hw (h w (List.mem_append_right _ (List.mem_singleton_self w)) (Nat.pos_of_ne_zero hne))
      simp [hw, Write.bytes, hput]

/-- Framed writes put the frames of those that are whole, and possibly a piece of the frame of the last
    one that put bytes. -/
lemma Framed.bytes_eq {ws : List Write} (h : Framed ws)
    (hput : ∀ w ∈ ws, w.put ≤ (frame w.data).length) : ∃ rest,
    ws.flatMap Write.bytes = ((wholeData ws).map frame).flatten ++ rest ∧
      (rest = [] ∨ ∃ w, (ws.filter (0 < ·.put)).getLast? = some w ∧ rest <+: frame w.data ∧
        rest ≠ frame w.data) := by
  induction ws using List.reverseRecOn with
  | nil => exact ⟨[], rfl, .inl rfl⟩
  | append_singleton ws w ih =>
    obtain ⟨hws, hw⟩ := framed_append.mp h
    rw [List.flatMap_append, List.flatMap_singleton, wholeData_append]
    have hlast : w ∈ ws ++ [w] := List.mem_append_right _ (List.mem_singleton_self w)
    by_cases hzero : w.put = 0
    · obtain ⟨rest, e, hrest⟩ := ih hws fun x hx => hput x (List.mem_append_left _ hx)
      have hcut : ¬ w.Whole := by
        intro hwhole
        have hlen : w.put = (frame w.data).length := hwhole
        rw [hzero, length_frame] at hlen
        exact absurd hlen (Nat.succ_ne_zero _).symm
      refine ⟨rest, ?_, ?_⟩
      · rw [e, if_neg hcut, Write.bytes, hzero, List.take_zero, List.append_nil, List.append_nil]
      · simpa [List.filter_append, hzero] using hrest
    · rw [bytes_eq_of_whole (hw.resolve_left hzero)]
      by_cases hwhole : w.Whole
      · have hlen : w.put = (frame w.data).length := hwhole
        refine ⟨[], ?_, .inl rfl⟩
        simp [hwhole, Write.bytes, hlen]
      · have hlt : w.put < (frame w.data).length := lt_of_le_of_ne (hput w hlast) hwhole
        refine ⟨w.bytes, by rw [if_neg hwhole, List.append_nil], .inr ⟨w, ?_, List.take_prefix _ _, ?_⟩⟩
        · simp [List.filter_append, Nat.pos_of_ne_zero hzero]
        · intro e
          have hlen := congrArg List.length e
          rw [Write.bytes, List.length_take, Nat.min_eq_left (Nat.le_of_lt hlt)] at hlen
          exact absurd hlen (Nat.ne_of_lt hlt)

/-- One write more, on any stream. -/
lemma framed_write_iff {net : Net} {w : Write} :
    (∀ stream, Framed ((net.write w).writesOn stream)) ↔
      (∀ stream, Framed (net.writesOn stream)) ∧ (w.put = 0 ∨ ¬ net.Cut w.stream) := by
  have hcut : ¬ net.Cut w.stream ↔ ∀ x ∈ net.writesOn w.stream, 0 < x.put → x.Whole := by
    simp only [Net.Cut, not_exists, not_and, not_not]
  rw [hcut]
  constructor
  · intro h
    have hw := h w.stream
    rw [Net.write_writesOn, if_pos rfl] at hw
    refine ⟨?_, (framed_append.mp hw).2⟩
    intro stream
    by_cases e : w.stream = stream
    · exact e ▸ (framed_append.mp hw).1
    · have h' := h stream
      rwa [Net.write_writesOn, if_neg e, List.append_nil] at h'
  · rintro ⟨h, hw⟩ stream
    rw [Net.write_writesOn]
    by_cases e : w.stream = stream
    · subst e
      rw [if_pos rfl]
      exact framed_append.mpr ⟨h _, hw⟩
    · rw [if_neg e, List.append_nil]
      exact h stream

/-- A stream is cut when it was before, or when the write is on it and is cut short. -/
lemma cut_write {net : Net} {w : Write} {stream} :
    (net.write w).Cut stream ↔ net.Cut stream ∨ w.stream = stream ∧ 0 < w.put ∧ ¬ w.Whole := by
  simp only [Net.Cut, Net.write_writesOn]
  split
  case isTrue e => simp [e, or_and_right, exists_or]
  case isFalse e => simp [e]

/-- The slot and the writes are about streams that were opened. -/
structure Bounded (c : Connection) (net : Net) : Prop where
  socket : ∀ stream, c.socket = some stream → stream < net.opened.length
  written : ∀ w ∈ net.written, w.stream < net.opened.length

/-- Nothing was written on a stream that is not open yet. -/
lemma not_cut_of_bounded {net : Net} (h : ∀ w ∈ net.written, w.stream < net.opened.length) :
    ¬ net.Cut net.opened.length := by
  rintro ⟨w, hw, _⟩
  obtain ⟨hmem, hstream⟩ := List.mem_filter.mp hw
  have hlt := h w hmem
  rw [of_decide_eq_true hstream] at hlt
  exact absurd hlt (Nat.lt_irrefl _)

/-! ## One send -/

/-- A call of `send`: its number, its data and what its operations meet. A write that fails has put
    a proper prefix of the frame. -/
structure SendCall (ε : Type*) where
  number : ℕ
  data : Bytes
  attempts : Attempts ε
  write_cutsShort : Io.CutsShort attempts.write data
  rewrite_cutsShort : Io.CutsShort attempts.rewrite data

/-- The call finds a stream in the slot on which a write was cut short, and its first write puts
    bytes. -/
def SendCall.Reuses (call : SendCall ε) (c : Connection) (net : Net) : Prop :=
  ∃ stream, c.socket = some stream ∧ net.Cut stream ∧ bytesPut call.attempts.write call.data ≠ 0

/-- Both writes of the call fail, the second one, on a new stream, when it has put bytes. -/
def SendCall.RetryCut (call : SendCall ε) : Prop :=
  (∃ fault, call.attempts.write = .error fault) ∧ call.attempts.reconnect = .ok () ∧
    ∃ fault, call.attempts.rewrite = .error fault ∧ 0 < fault.put

/-- Where the first write of a send goes: to the stream of the slot, or to a new one. -/
def Connection.FirstStream (c : Connection) (net : Net) (stream : ℕ) (net₁ : Net) : Prop :=
  c.socket = some stream ∧ net₁ = net ∨
    c.socket = none ∧ stream = net.opened.length ∧ net₁ = net.connect c.address

/-- Nothing is written before the first write. -/
lemma Connection.FirstStream.written_eq {c : Connection} {net net₁ : Net} {stream}
    (h : c.FirstStream net stream net₁) : net₁.written = net.written := by
  rcases h with ⟨_, rfl⟩ | ⟨_, _, rfl⟩ <;> rfl

/-- What a send does: it gives up before it writes, or it writes on the stream of the slot or a new
    one, and perhaps once more on another new one. -/
lemma send_cases (c : Connection) (net : Net) (data : Bytes) (writer : ℕ) (ios : Attempts ε) :
    (c.socket = none ∧ (c.send net data writer ios).2 = (c, net)) ∨
    ∃ stream net₁, c.FirstStream net stream net₁ ∧
      ((∃ socket, (socket = none ∨ socket = some stream ∧ ios.write = .ok ()) ∧
          (c.send net data writer ios).2 =
            ({ c with socket }, net₁.write ⟨stream, writer, data, bytesPut ios.write data⟩)) ∨
        ((∃ fault, ios.write = .error fault) ∧ ios.reconnect = .ok ()) ∧
          (c.send net data writer ios).2 =
            ({ c with socket := some net₁.opened.length },
              ((net₁.write ⟨stream, writer, data, bytesPut ios.write data⟩).connect c.address).write
                ⟨net₁.opened.length, writer, data, bytesPut ios.rewrite data⟩)) := by
  obtain ⟨address, socket⟩ := c
  obtain ⟨connect, write, reconnect, rewrite⟩ := ios
  cases socket with
  | some stream =>
    refine .inr ⟨stream, net, .inl ⟨rfl, rfl⟩, ?_⟩
    cases write with
    | ok => exact .inl ⟨_, .inr ⟨rfl, rfl⟩, rfl⟩
    | error fault =>
      cases reconnect with
      | error => exact .inl ⟨_, .inl rfl, rfl⟩
      | ok => cases rewrite <;> exact .inr ⟨⟨⟨fault, rfl⟩, rfl⟩, rfl⟩
  | none =>
    cases connect with
    | error => exact .inl ⟨rfl, rfl⟩
    | ok =>
      refine .inr ⟨net.opened.length, net.connect address, .inr ⟨rfl, rfl, rfl⟩, ?_⟩
      cases write with
      | ok => exact .inl ⟨_, .inr ⟨rfl, rfl⟩, rfl⟩
      | error fault =>
        cases reconnect with
        | error => exact .inl ⟨_, .inl rfl, rfl⟩
        | ok => cases rewrite <;> exact .inr ⟨⟨⟨fault, rfl⟩, rfl⟩, rfl⟩

/-- A stream more keeps the writes on open streams. -/
lemma Bounded.connect {c : Connection} {net : Net} (h : Bounded c net) (address) :
    ∀ w ∈ (net.connect address).written, w.stream < (net.connect address).opened.length := by
  intro w hw
  rw [Net.connect_opened, List.length_append]
  exact Nat.lt_add_right _ (h.written w hw)

/-- The stream that the first write of a send goes to, and what was written so far. -/
lemma Bounded.first {c : Connection} {net net₁ : Net} {stream} (h : Bounded c net)
    (hfirst : c.FirstStream net stream net₁) :
    stream < net₁.opened.length ∧ (∀ w ∈ net₁.written, w.stream < net₁.opened.length) ∧
      net₁.writesOn = net.writesOn := by
  rcases hfirst with ⟨hs, rfl⟩ | ⟨_, rfl, rfl⟩
  · exact ⟨h.socket stream hs, h.written, rfl⟩
  · refine ⟨?_, h.connect c.address, rfl⟩
    rw [Net.connect_opened, List.length_append]
    exact Nat.lt_succ_self _

/-- One write more on an open stream. -/
lemma written_write {net : Net} {w : Write} (h : ∀ x ∈ net.written, x.stream < net.opened.length)
    (hw : w.stream < net.opened.length) :
    ∀ x ∈ (net.write w).written, x.stream < (net.write w).opened.length := by
  intro x hx
  rcases List.mem_append.mp hx with hx | hx
  · exact h x hx
  · rw [List.mem_singleton.mp hx]
    exact hw

/-- A send keeps to the streams that are open. -/
lemma Bounded.send {c : Connection} {net : Net} (h : Bounded c net) (data writer) (ios : Attempts ε) :
    Bounded (c.send net data writer ios).2.1 (c.send net data writer ios).2.2 := by
  rcases send_cases c net data writer ios with
    ⟨_, e⟩ | ⟨stream, net₁, hfirst, ⟨socket, hsocket, e⟩ | ⟨_, e⟩⟩
  · rw [e]
    exact h
  · obtain ⟨hs, hw, _⟩ := h.first hfirst
    rw [e]
    refine ⟨?_, written_write hw hs⟩
    rintro stream' rfl
    rcases hsocket with hsocket | ⟨hsocket, _⟩
    · cases hsocket
    · cases hsocket
      exact hs
  · obtain ⟨hs, hw, _⟩ := h.first hfirst
    have hnew : net₁.opened.length < (net₁.opened ++ [c.address]).length := by
      rw [List.length_append]
      exact Nat.lt_succ_self _
    rw [e]
    refine ⟨?_, written_write ?_ hnew⟩
    · rintro stream' h'
      cases h'
      exact hnew
    · intro w hmem
      exact Nat.lt_trans (written_write hw hs w hmem) hnew

/-- A send keeps the framing exactly when it reuses no stream that was cut. -/
lemma framed_send_iff {c : Connection} {net : Net} (h : Bounded c net) (call : SendCall ε) :
    (∀ stream,
        Framed ((c.send net call.data call.number call.attempts).2.2.writesOn stream)) ↔
      (∀ stream, Framed (net.writesOn stream)) ∧ ¬ call.Reuses c net := by
  -- what the first write does to the framing
  have hfirst_iff : ∀ {stream net₁}, c.FirstStream net stream net₁ →
      ((∀ stream', Framed ((net₁.write ⟨stream, call.number, call.data,
          bytesPut call.attempts.write call.data⟩).writesOn stream')) ↔
        (∀ stream', Framed (net.writesOn stream')) ∧ ¬ call.Reuses c net) := by
    intro stream net₁ hfirst
    rw [framed_write_iff]
    rcases hfirst with ⟨hs, rfl⟩ | ⟨hs, rfl, rfl⟩
    · refine and_congr_right fun _ => ?_
      simp only [SendCall.Reuses, hs, Option.some.injEq, exists_eq_left', not_and, not_not]
      tauto
    · refine and_congr_right fun _ => ?_
      simp only [SendCall.Reuses, hs, reduceCtorEq, false_and, exists_false, not_false_eq_true, iff_true]
      exact .inr (not_cut_of_bounded h.written)
  rcases send_cases c net call.data call.number call.attempts with
    ⟨hs, e⟩ | ⟨stream, net₁, hfirst, ⟨socket, _, e⟩ | ⟨_, e⟩⟩
  · rw [e]
    simp [SendCall.Reuses, hs]
  · rw [e]
    exact hfirst_iff hfirst
  · obtain ⟨hs, hw, _⟩ := h.first hfirst
    rw [e, framed_write_iff, ← hfirst_iff hfirst]
    refine ⟨And.left, fun h' => ⟨h', .inr ?_⟩⟩
    -- the second write goes to a new stream
    exact not_cut_of_bounded (written_write hw hs)

/-- A write on the streams after a send is one of before, or it is of that send. -/
lemma written_send {c : Connection} {net : Net} (call : SendCall ε) :
    ∀ w ∈ (c.send net call.data call.number call.attempts).2.2.written, w ∈ net.written ∨
      w.writer = call.number ∧ w.data = call.data ∧ w.put ≤ (frame w.data).length := by
  have hfirst_le := bytesPut_le call.write_cutsShort
  have hsecond_le := bytesPut_le call.rewrite_cutsShort
  intro w hw
  rcases send_cases c net call.data call.number call.attempts with
    ⟨_, e⟩ | ⟨stream, net₁, hfirst, ⟨_, _, e⟩ | ⟨_, e⟩⟩
  · rw [e] at hw
    exact .inl hw
  · rw [e, Net.write_written, hfirst.written_eq] at hw
    rcases List.mem_append.mp hw with hw | hw
    · exact .inl hw
    · rw [List.mem_singleton.mp hw]
      exact .inr ⟨rfl, rfl, hfirst_le⟩
  · rw [e, Net.write_written] at hw
    change w ∈ (net₁.written ++ [_]) ++ [_] at hw
    rw [hfirst.written_eq] at hw
    rcases List.mem_append.mp hw with hw | hw
    · rcases List.mem_append.mp hw with hw | hw
      · exact .inl hw
      · rw [List.mem_singleton.mp hw]
        exact .inr ⟨rfl, rfl, hfirst_le⟩
    · rw [List.mem_singleton.mp hw]
      exact .inr ⟨rfl, rfl, hsecond_le⟩

/-- A send removes no write. -/
lemma writesOn_send {c : Connection} {net : Net} (call : SendCall ε) {stream w}
    (hw : w ∈ net.writesOn stream) :
    w ∈ (c.send net call.data call.number call.attempts).2.2.writesOn stream := by
  rcases send_cases c net call.data call.number call.attempts with
    ⟨_, e⟩ | ⟨stream₁, net₁, hfirst, hrest⟩
  · rw [e]
    exact hw
  · have hsame : net₁.writesOn stream = net.writesOn stream := by
      rw [Net.writesOn, hfirst.written_eq, Net.writesOn]
    have hfirst_write : ∀ w', w ∈ (net₁.write w').writesOn stream := by
      intro w'
      rw [Net.write_writesOn, hsame]
      exact List.mem_append_left _ hw
    rcases hrest with ⟨_, _, e⟩ | ⟨_, e⟩
    · rw [e]
      exact hfirst_write _
    · rw [e, Net.write_writesOn]
      exact List.mem_append_left _ (hfirst_write _)

/-- A cut stream that a send leaves in the slot was there before, or it is the new one of its second
    write, which failed. -/
lemma cut_send {c : Connection} {net : Net} (h : Bounded c net) (call : SendCall ε) {stream}
    (hsocket : (c.send net call.data call.number call.attempts).2.1.socket = some stream)
    (hcut : (c.send net call.data call.number call.attempts).2.2.Cut stream) :
    (c.socket = some stream ∧ net.Cut stream) ∨
      call.RetryCut ∧ ⟨stream, call.number, call.data, bytesPut call.attempts.rewrite call.data⟩ ∈
        (c.send net call.data call.number call.attempts).2.2.writesOn stream := by
  rcases send_cases c net call.data call.number call.attempts with
    ⟨_, e⟩ | ⟨stream₁, net₁, hfirst, ⟨socket, hwrite, e⟩ | ⟨⟨herror, hconnected⟩, e⟩⟩
  · rw [e] at hsocket hcut
    exact .inl ⟨hsocket, hcut⟩
  · rw [e] at hsocket hcut
    rcases hwrite with rfl | ⟨rfl, hok⟩
    · cases hsocket
    · cases hsocket
      -- the write was whole, so that the cut is an older one
      have hold : net₁.Cut stream := by
        refine (cut_write.mp hcut).resolve_right fun ⟨_, _, hpiece⟩ => hpiece ?_
        rw [hok]
        rfl
      rcases hfirst with ⟨hslot, rfl⟩ | ⟨_, rfl, rfl⟩
      · exact .inl ⟨hslot, hold⟩
      · exact absurd hold (not_cut_of_bounded h.written)
  · obtain ⟨hs, hw, _⟩ := h.first hfirst
    rw [e] at hsocket hcut ⊢
    cases hsocket
    have hpiece := (cut_write.mp hcut).resolve_left (not_cut_of_bounded (written_write hw hs))
    refine .inr ⟨⟨herror, hconnected, ?_⟩, ?_⟩
    · cases hrewrite : call.attempts.rewrite with
      | ok =>
        refine absurd ?_ hpiece.2.2
        rw [hrewrite]
        rfl
      | error fault =>
        have hput := hpiece.2.1
        rw [hrewrite] at hput
        exact ⟨fault, rfl, hput⟩
    · rw [Net.write_writesOn, if_pos rfl]
      exact List.mem_append_right _ (List.mem_singleton_self _)

/-! ## All sends -/

/-- The connection and the streams after some sends, one after the other. -/
def Connection.sends (address : SocketAddr) (calls : List (SendCall ε)) : Connection × Net :=
  calls.foldl (fun (c, net) call => (c.send net call.data call.number call.attempts).2)
    (.new address, .empty)

/-- One send more. -/
lemma sends_append (address) (calls : List (SendCall ε)) (call) :
    Connection.sends address (calls ++ [call]) =
      ((Connection.sends address calls).1.send (Connection.sends address calls).2 call.data call.number
        call.attempts).2 := by
  rw [Connection.sends, List.foldl_append]
  rfl

/-- Sends keep to the streams that are open. -/
lemma bounded_sends (address) (calls : List (SendCall ε)) :
    Bounded (Connection.sends address calls).1 (Connection.sends address calls).2 := by
  induction calls using List.reverseRecOn with
  | nil =>
    refine ⟨?_, ?_⟩
    · rintro stream h
      cases h
    · intro w h
      cases h
  | append_singleton calls call ih =>
    rw [sends_append]
    exact ih.send call.data call.number call.attempts

/-- Each write is of one of the sends. -/
lemma written_sends (address) (calls : List (SendCall ε)) :
    ∀ w ∈ (Connection.sends address calls).2.written, ∃ call ∈ calls,
      w.writer = call.number ∧ w.data = call.data ∧ w.put ≤ (frame w.data).length := by
  induction calls using List.reverseRecOn with
  | nil =>
    intro w h
    cases h
  | append_singleton calls call ih =>
    intro w hw
    rw [sends_append] at hw
    rcases written_send call w hw with hw | hw
    · obtain ⟨call', hmem, hof⟩ := ih w hw
      exact ⟨call', List.mem_append_left _ hmem, hof⟩
    · exact ⟨call, List.mem_append_right _ (List.mem_singleton_self call), hw⟩

/-- A cut stream in the slot is the one on which the second write of an earlier send failed. -/
lemma retryCut_of_cut {address} {calls : List (SendCall ε)} {stream}
    (hsocket : (Connection.sends address calls).1.socket = some stream)
    (hcut : (Connection.sends address calls).2.Cut stream) : ∃ call ∈ calls, call.RetryCut ∧
      ⟨stream, call.number, call.data, bytesPut call.attempts.rewrite call.data⟩ ∈
        (Connection.sends address calls).2.writesOn stream := by
  induction calls using List.reverseRecOn with
  | nil => cases hsocket
  | append_singleton calls call ih =>
    rw [sends_append] at hsocket hcut ⊢
    rcases cut_send (bounded_sends address calls) call hsocket hcut with ⟨hslot, hold⟩ | ⟨hretry, hw⟩
    · obtain ⟨call', hmem, hretry, hw⟩ := ih hslot hold
      exact ⟨call', List.mem_append_left _ hmem, hretry, writesOn_send _ hw⟩
    · exact ⟨call, List.mem_append_right _ (List.mem_singleton_self call), hretry, hw⟩

/-- No send reuses a stream on which a write was cut short. -/
def NoReuse (address : SocketAddr) (calls : List (SendCall ε)) : Prop :=
  ∀ pre call post, calls = pre ++ call :: post →
    ¬ call.Reuses (Connection.sends address pre).1 (Connection.sends address pre).2

/-- One send more. -/
lemma noReuse_append {address} {calls : List (SendCall ε)} {call} :
    NoReuse address (calls ++ [call]) ↔
      NoReuse address calls ∧
        ¬ call.Reuses (Connection.sends address calls).1 (Connection.sends address calls).2 := by
  constructor
  · intro h
    refine ⟨?_, h calls call [] rfl⟩
    rintro pre call' post rfl
    exact h pre call' (post ++ [call]) (by simp)
  · rintro ⟨h, hcall⟩ pre call' post e
    rcases List.eq_nil_or_concat post with rfl | ⟨post', last, rfl⟩
    · obtain ⟨rfl, e'⟩ := List.append_inj' e rfl
      cases e'
      exact hcall
    · have e' : calls ++ [call] = (pre ++ call' :: post') ++ [last] := by simpa using e
      exact h pre call' post' (List.append_inj' e' rfl).1

/-- **Framing.** After any sends on a connection, whatever failed, every stream holds whole frames,
    possibly with a proper prefix of one after them behind which nothing was put, exactly when no
    send wrote on a stream that an earlier one had left in the slot with its retry cut short. The whole
    frames are those of the whole writes on the stream, each of one of the sends, and the prefix is one
    of the frame of the last write; a cut stream in the slot is always that of an earlier send, both
    writes of which failed. -/
theorem framed_iff (address : SocketAddr) (calls : List (SendCall ε)) :
    ((∀ stream, Framed ((Connection.sends address calls).2.writesOn stream)) ↔
      NoReuse address calls) ∧
    (NoReuse address calls → ∀ stream, ∃ rest,
      (Connection.sends address calls).2.bytesOn stream =
        ((wholeData ((Connection.sends address calls).2.writesOn stream)).map frame).flatten ++ rest ∧
      (rest = [] ∨ ∃ w,
        (((Connection.sends address calls).2.writesOn stream).filter (0 < ·.put)).getLast? = some w ∧
        rest <+: frame w.data ∧ rest ≠ frame w.data)) ∧
    (∀ w ∈ (Connection.sends address calls).2.written, ∃ call ∈ calls,
      w.writer = call.number ∧ w.data = call.data ∧ w.put ≤ (frame w.data).length) ∧
    ∀ stream, (Connection.sends address calls).1.socket = some stream →
      (Connection.sends address calls).2.Cut stream → ∃ call ∈ calls, call.RetryCut ∧
        ⟨stream, call.number, call.data, bytesPut call.attempts.rewrite call.data⟩ ∈
          (Connection.sends address calls).2.writesOn stream := by
  have hiff : (∀ stream, Framed ((Connection.sends address calls).2.writesOn stream)) ↔
      NoReuse address calls := by
    induction calls using List.reverseRecOn with
    | nil =>
      refine iff_of_true (fun _ => framed_nil) ?_
      rintro pre call post h
      simp at h
    | append_singleton calls call ih =>
      rw [sends_append, framed_send_iff (bounded_sends address calls), noReuse_append, ih]
  have hof := written_sends address calls
  refine ⟨hiff, fun h stream => (hiff.mpr h stream).bytes_eq fun w hw => ?_, hof, fun stream =>
    retryCut_of_cut⟩
  obtain ⟨_, _, _, _, hput⟩ := hof w (List.mem_filter.mp hw).1
  exact hput

/-- A send whose two writes fail, the second after two of seven bytes. -/
def cutCall : SendCall Unit where
  number := 0
  data := [97, 98, 99]
  attempts := ⟨.ok (), .error ⟨(), 0⟩, .ok (), .error ⟨(), 2⟩⟩
  write_cutsShort := by
    rintro fault ⟨⟩
    decide
  rewrite_cutsShort := by
    rintro fault ⟨⟩
    decide

/-- A send that meets no failure. -/
def wholeCall : SendCall Unit where
  number := 1
  data := [100]
  attempts := ⟨.ok (), .ok (), .ok (), .ok ()⟩
  write_cutsShort := by
    rintro fault ⟨⟩
  rewrite_cutsShort := by
    rintro fault ⟨⟩

/-- The second send writes its frame behind two bytes of the first one's. -/
theorem framed_fails_retryCutShort :
    (Connection.sends sampleAddr [cutCall, wholeCall]).2.bytesOn 1 = [0, 0] ++ frame [100] ∧
      ¬ ∀ stream, Framed ((Connection.sends sampleAddr [cutCall, wholeCall]).2.writesOn stream) := by
  refine ⟨by decide +kernel, fun h => ?_⟩
  have hcut := h 1 ⟨1, 0, [97, 98, 99], 2⟩ (by decide +kernel)
  revert hcut
  decide +kernel

end ShardusNet.Transport
