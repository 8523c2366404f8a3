import ShardusNet.Lib.Runs
import ShardusNet.Wire.Listener
/-!
# The listener at work

Port of `bind_to_socket` and `accept_connections` in `shardus_net/src/shardus_net_listener.rs` and
of the loop of `listen` in `shardus_net/src/lib.rs` as a step relation. Each accepted connection has
a task that runs `receive`. All tasks send to one channel; `listen` takes the items off it and gives
each to a blocking task, and the blocking tasks post them to the JavaScript thread in any order. The
runtime runs only so many blocking tasks at a time, which is left out here: there are more runs than
the runtime has.

A step of a `receive` task ends where the task waits for its socket: at the length of a frame or at
its body. A panic ends the task it happens in and no other. An item is known with the number of the
connection it came on, which the source does not keep.
-/

namespace ShardusNet.Wire
open ByteCodec Framing Runs

/-- Where a `receive` task is: before a length, before a body, or returned. -/
inductive Reading where
  | length
  | body (msgLen : ℕ)
  | returned (exit : Exit)

/-- An accepted connection. `arrived` is what its socket has handed over or can hand over, `unread`
    the part of it the task has not taken; nothing arrives any more when it is `closed`. -/
structure SocketStream where
  remoteAddr : SocketAddr
  arrived : Bytes
  unread : Bytes
  closed : Bool
  reading : Reading

/-- A connection that was just accepted. -/
def SocketStream.new (remoteAddr : SocketAddr) :
    SocketStream := ⟨remoteAddr, [], [], false, .length⟩

/-- Bytes arrive. -/
def SocketStream.arrive (a : SocketStream) (bytes : Bytes) : SocketStream :=
  { a with arrived := a.arrived ++ bytes, unread := a.unread ++ bytes }

/-- The connection ends. -/
def SocketStream.close (a : SocketStream) : SocketStream := { a with closed := true }

/-- The state of a listener: whether it is bound, the accepted connections, what was sent to the
    channel so far, and where these items are: in the channel, with a blocking task, in the queue of
    the JavaScript thread, or handed to the callback. -/
structure Listening where
  bound : Bool
  accepted : List SocketStream
  sent : List (ℕ × Delivery)
  channel : List (ℕ × Delivery)
  blocking : List (ℕ × Delivery)
  queue : List (ℕ × Delivery)
  called : List (ℕ × Delivery)

/-- What happens to a listener. -/
inductive ListenEvent where
  | bind
  | acceptFailed
  | accept (remoteAddr : SocketAddr)
  | arrive (i : ℕ) (bytes : Bytes)
  | close (i : ℕ)
  | read (i : ℕ)
  | recv
  | post (item : ℕ × Delivery)
  | call

section
variable (crates : Crates) (crypto : ShardusCrypto)

/-- One step of the `receive` task of a connection and what it sends to the channel; `none` while it
    waits. -/
def SocketStream.read (a : SocketStream) : Option (SocketStream × Option Delivery) :=
  match a.reading with
  | .length =>
    match readBe 4 a.unread with
    | some (msgLen, unread) => some ({ a with unread, reading := .body msgLen }, none)
    | none => if a.closed then some ({ a with reading := .returned .ok }, none) else none
  | .body msgLen =>
    match readExact msgLen a.unread with
    | some (buffer, unread) =>
      match handleFrame crates crypto a.remoteAddr buffer with
      | .error e => some ({ a with unread, reading := .returned e }, none)
      | .ok item => some ({ a with unread, reading := .length }, item)
    | none =>
      if a.closed then some ({ a with reading := .returned (.error .ReadStreamError) }, none)
      else none
  | .returned _ => none

namespace Listening

/-- `ShardusNetListener::listen`. -/
def new : Listening := ⟨false, [], [], [], [], [], []⟩

/-- A connection is accepted and its task is spawned. -/
def accept (s : Listening) (remoteAddr : SocketAddr) : Listening :=
  { s with accepted := s.accepted ++ [.new remoteAddr] }

/-- A `receive` task takes a step. -/
def read (s : Listening) (i : ℕ) (a : SocketStream) (item : Option Delivery) : Listening :=
  { s with
    accepted := s.accepted.set i a
    sent := s.sent ++ item.toList.map (i, ·)
    channel := s.channel ++ item.toList.map (i, ·) }

/-- The items that came on a connection. -/
def sentBy (s : Listening) (i : ℕ) : List Delivery := (s.sent.filter (·.1 = i)).map Prod.snd

/-- The items that were handed to the callback and came on a connection. -/
def calledBy (s : Listening) (i : ℕ) : List Delivery := (s.called.filter (·.1 = i)).map Prod.snd

/-- The items that are on their way to the callback. -/
def pending (s : Listening) : List (ℕ × Delivery) := s.queue ++ s.blocking ++ s.channel

end Listening

/-- One event. -/
inductive ListenStep : Listening → ListenEvent → Listening → Prop
  | bind {s} (hunbound : s.bound = false) : ListenStep s .bind { s with bound := true }
  | acceptFailed {s} (hbound : s.bound = true) :
    ListenStep s .acceptFailed { s with bound := false }
  | accept {s remoteAddr} (hbound : s.bound = true) :
    ListenStep s (.accept remoteAddr) (s.accept remoteAddr)
  | arrive {s i a bytes} (ha : s.accepted[i]? = some a) (hopen : a.closed = false) :
    ListenStep s (.arrive i bytes) { s with accepted := s.accepted.set i (a.arrive bytes) }
  | close {s i a} (ha : s.accepted[i]? = some a) :
    ListenStep s (.close i) { s with accepted := s.accepted.set i a.close }
  | read {s i a a' item} (ha : s.accepted[i]? = some a) (hread :
    a.read crates crypto = some (a', item)) :
    ListenStep s (.read i) (s.read i a' item)
  | recv {s item rest} (hchannel : s.channel = item :: rest) :
    ListenStep s .recv { s with channel := rest, blocking := s.blocking ++ [item] }
  | post {s pre item post} (hblocking : s.blocking = pre ++ item :: post) :
    ListenStep s (.post item) { s with blocking := pre ++ post, queue := s.queue ++ [item] }
  | call {s item rest} (hqueue : s.queue = item :: rest) :
    ListenStep s .call { s with queue := rest, called := s.called ++ [item] }

/-- It is a step of one of the tasks, or a call on the JavaScript thread. -/
def ListenEvent.Internal : ListenEvent → Prop
  | .read _ => True
  | .recv => True
  | .post _ => True
  | .call => True
  | _ => False

/-- No task can take a step, and no call is left to make. -/
def Listening.Idle (s : Listening) : Prop :=
  ∀ e s', ListenStep crates crypto s e s' → ¬ e.Internal

/-! ## One connection -/

/-- What the loop did, after some deliveries. -/
def Received.after (r : Received) (delivered : List Delivery) : Received :=
  { r with delivered := delivered ++ r.delivered }

/-- With the receiver held it does not matter how many items were sent before. -/
lemma receiveFrom_receiverHeld (remoteAddr sent stream) :
    receiveFrom crates crypto remoteAddr receiverHeld sent stream =
      receive crates crypto remoteAddr receiverHeld stream := by
  rw [receive, receiveFrom_eq_run, receiveFrom_eq_run]
  generalize frames stream = bodies
  have h : ∀ sent sent', run crates crypto remoteAddr receiverHeld (endOf (leftover stream)) sent bodies =
      run crates crypto remoteAddr receiverHeld (endOf (leftover stream)) sent' bodies := by
    induction bodies with
    | nil =>
      intro _ _
      rfl
    | cons b bs ih =>
      intro sent sent'
      have hheld : ∀ k, receiverHeld k = false := fun _ => rfl
      simp only [run, hheld, Bool.false_eq_true, if_false, ih sent sent', ih (sent + 1) (sent' + 1)]
  exact h sent 0

/-- What the loop does from where the task is, if `more` arrives yet, behind what was delivered. -/
def SocketStream.goesOn (a : SocketStream) (delivered : List Delivery) (more : Bytes) : Received :=
  match a.reading with
  | .length => (receive crates crypto a.remoteAddr receiverHeld (a.unread ++ more)).after delivered
  | .body msgLen =>
    (receive crates crypto a.remoteAddr receiverHeld (be 4 msgLen ++ (a.unread ++ more))).after delivered
  | .returned exit => ⟨delivered, exit⟩

/-- What a task has delivered so far is what the loop delivers first, whatever arrives yet. -/
structure SocketStream.Holds (a : SocketStream) (delivered : List Delivery) : Prop where
  msgLen : ∀ n, a.reading = .body n → n < 2 ^ 32
  loop : ∀ more, (a.closed = true → more = []) →
    receive crates crypto a.remoteAddr receiverHeld (a.arrived ++ more) =
      a.goesOn crates crypto delivered more

/-- One turn of the loop, with the receiver held. -/
lemma receive_of_next_some {remoteAddr stream buffer rest} (h : next stream = some (buffer, rest)) :
    receive crates crypto remoteAddr receiverHeld stream =
      match handleFrame crates crypto remoteAddr buffer with
      | .error e => ⟨[], e⟩
      | .ok item => (receive crates crypto remoteAddr receiverHeld rest).after item.toList := by
  rw [receive, receiveFrom_of_next_some crates crypto remoteAddr h]
  cases handleFrame crates crypto remoteAddr buffer with
  | error e => rfl
  | ok item =>
    cases item with
    | none => rfl
    | some item =>
      have hheld : receiverHeld 0 = false := rfl
      simp only [hheld, Bool.false_eq_true, if_false]
      rw [receiveFrom_receiverHeld]
      rfl

/-- The end of the loop, with the receiver held. -/
lemma receive_of_next_none {remoteAddr stream} (h : next stream = none) :
    receive crates crypto remoteAddr receiverHeld stream = ⟨[], endOf stream⟩ :=
  receiveFrom_of_next_none crates crypto remoteAddr h

/-- Nothing was delivered before. -/
@[simp] lemma Received.after_nil (r : Received) : r.after [] = r := rfl

/-- What was delivered before the task returned. -/
@[simp] lemma Received.after_ended (exit : Exit) (ds : List Delivery) :
    (⟨[], exit⟩ : Received).after ds = ⟨ds, exit⟩ := by
  simp [Received.after]

/-- What was delivered before in two parts. -/
@[simp] lemma Received.after_append (r : Received) (ds ds' : List Delivery) :
    (r.after ds').after ds = r.after (ds ++ ds') := by
  simp [Received.after]

/-- A body behind its length is a frame. -/
lemma next_be_append {n : ℕ} {buffer rest : Bytes} (hn : n < 2 ^ 32) (hlen : buffer.length = n) :
    next (be 4 n ++ (buffer ++ rest)) = some (buffer, rest) := by
  subst hlen
  rw [next_eq_some, frame, List.append_assoc]
  exact ⟨hn, rfl⟩

/-- A body that is too short for its length is no frame. -/
lemma next_be_eq_none {n : ℕ} {bytes : Bytes} (hn : n < 2 ^ 32) (h : readExact n bytes = none) :
    next (be 4 n ++ bytes) = none := by
  have hlen : readBe 4 (be 4 n ++ bytes) = some (n, bytes) := readBe_eq_some.mpr ⟨hn, rfl⟩
  rw [next, hlen]
  exact h

/-- A stream without a length in front has no frame in front. -/
lemma next_eq_none_of_readBe {bytes : Bytes} (h : readBe 4 bytes = none) : next bytes = none := by
  rw [next, h]
  rfl

/-- A connection that was just accepted has delivered nothing. -/
lemma SocketStream.holds_new (remoteAddr) : (SocketStream.new remoteAddr).Holds crates crypto [] where
  msgLen n h := by cases h
  loop more _ := rfl

/-- What arrives is part of what may arrive yet. -/
lemma SocketStream.Holds.arrive {a : SocketStream} {delivered} (h : a.Holds crates crypto delivered)
    (hopen : a.closed = false) (bytes) : (a.arrive bytes).Holds crates crypto delivered where
  msgLen := h.msgLen
  loop more _ := by
    have hloop := h.loop (bytes ++ more) (by simp [hopen])
    simpa only [SocketStream.goesOn, SocketStream.arrive, List.append_assoc] using hloop

/-- The end of a connection leaves less that may arrive yet. -/
lemma SocketStream.Holds.close {a : SocketStream} {delivered}
    (h : a.Holds crates crypto delivered) :
    a.close.Holds crates crypto delivered where
  msgLen := h.msgLen
  loop more hmore := h.loop more fun _ => hmore rfl

/-- One step of a task delivers what the loop delivers next. -/
lemma SocketStream.Holds.read {a a' : SocketStream} {delivered item}
    (h : a.Holds crates crypto delivered) (hread : a.read crates crypto = some (a', item)) :
    a'.Holds crates crypto (delivered ++ item.toList) := by
  obtain ⟨remoteAddr, arrived, unread, closed, reading⟩ := a
  cases reading with
  | length =>
    simp only [SocketStream.read] at hread
    split at hread
    case h_1 msgLen rest hlen =>
      cases hread
      obtain ⟨hlt, rfl⟩ := readBe_eq_some.mp hlen
      refine ⟨?_, fun more hmore => ?_⟩
      · rintro n ⟨⟩
        exact hlt
      · have hloop := h.loop more hmore
        simpa only [goesOn, Option.toList_none, List.append_nil, List.append_assoc] using hloop
    case h_2 hlen =>
      split at hread
      case isFalse => cases hread
      case isTrue hclosed =>
        cases hread
        refine ⟨?_, fun more hmore => ?_⟩
        · rintro n ⟨⟩
        · have hloop := h.loop more hmore
          obtain rfl := hmore hclosed
          have hend : endOf unread = .ok := by rw [endOf, if_pos (readBe_eq_none.mp hlen)]
          have hlast := @receive_of_next_none crates crypto remoteAddr _ (next_eq_none_of_readBe hlen)
          simp only [goesOn, List.append_nil, hlast, hend, Received.after_ended] at hloop
          simpa only [goesOn, Option.toList_none, List.append_nil] using hloop
  | body n =>
    have hn : n < 2 ^ 32 := h.msgLen n rfl
    simp only [SocketStream.read] at hread
    split at hread
    case h_1 buffer rest hbuffer =>
      obtain ⟨hlen, rfl⟩ := readExact_eq_some.mp hbuffer
      have hnext := fun more => @next_be_append n buffer (rest ++ more) hn hlen
      have hturn := fun more => @receive_of_next_some crates crypto remoteAddr _ _ _ (hnext more)
      split at hread
      case h_1 e hframe =>
        cases hread
        refine ⟨?_, fun more hmore => ?_⟩
        · rintro n ⟨⟩
        · have hloop := h.loop more hmore
          simp only [goesOn, List.append_assoc, hturn, hframe, Received.after_ended] at hloop
          simpa only [goesOn, Option.toList_none, List.append_nil] using hloop
      case h_2 item' hframe =>
        cases hread
        refine ⟨?_, fun more hmore => ?_⟩
        · rintro n ⟨⟩
        · have hloop := h.loop more hmore
          simp only [goesOn, List.append_assoc, hturn, hframe, Received.after_append] at hloop
          exact hloop
    case h_2 hbuffer =>
      split at hread
      case isFalse => cases hread
      case isTrue hclosed =>
        cases hread
        refine ⟨?_, fun more hmore => ?_⟩
        · rintro n ⟨⟩
        · have hloop := h.loop more hmore
          obtain rfl := hmore hclosed
          have hend : endOf (be 4 n ++ unread) = .error .ReadStreamError := by
            rw [endOf, if_neg (by rw [List.length_append, length_be]; omega)]
          have hlast := @receive_of_next_none crates crypto remoteAddr _ (next_be_eq_none hn hbuffer)
          simp only [goesOn, List.append_nil, hlast, hend, Received.after_ended] at hloop
          simpa only [goesOn, Option.toList_none, List.append_nil] using hloop
  | returned => cases hread

/-- What a task has delivered is what the loop delivers first; a task that returned has delivered
    all of it, and ended as the loop ends. -/
lemma SocketStream.Holds.receive_eq {a : SocketStream} {delivered}
    (h : a.Holds crates crypto delivered) :
    receive crates crypto a.remoteAddr receiverHeld a.arrived =
      a.goesOn crates crypto delivered [] := by
  have hloop := h.loop [] fun _ => rfl
  rwa [List.append_nil] at hloop

/-- What a connection delivered is a prefix of what `receive` delivers of its bytes. -/
lemma SocketStream.Holds.isPrefix {a : SocketStream} {delivered}
    (h : a.Holds crates crypto delivered) :
    delivered <+: (receive crates crypto a.remoteAddr receiverHeld a.arrived).delivered := by
  rw [h.receive_eq crates crypto, goesOn]
  cases a.reading with
  | length => exact List.prefix_append _ _
  | body => exact List.prefix_append _ _
  | returned => exact List.prefix_refl _

/-- A task that waits has delivered all that the loop delivers. -/
lemma SocketStream.Holds.of_read_eq_none {a : SocketStream} {delivered}
    (h : a.Holds crates crypto delivered) (hread : a.read crates crypto = none) :
    delivered = (receive crates crypto a.remoteAddr receiverHeld a.arrived).delivered := by
  rw [h.receive_eq crates crypto]
  obtain ⟨remoteAddr, arrived, unread, closed, reading⟩ := a
  cases reading with
  | length =>
    have hlen : readBe 4 unread = none := by
      cases hlen : readBe 4 unread with
      | none => rfl
      | some p => simp [SocketStream.read, hlen] at hread
    simp only [goesOn, List.append_nil, receive_of_next_none crates crypto (next_eq_none_of_readBe hlen),
      Received.after_ended]
  | body n =>
    have hbuffer : readExact n unread = none := by
      cases hbuffer : readExact n unread with
      | none => rfl
      | some p =>
        simp only [SocketStream.read, hbuffer] at hread
        cases hframe : handleFrame crates crypto remoteAddr p.1 <;> simp [hframe] at hread
    simp only [goesOn, List.append_nil,
      receive_of_next_none crates crypto (next_be_eq_none (h.msgLen n rfl) hbuffer), Received.after_ended]
  | returned => rfl

variable {crates crypto} in
/-- A step of a task keeps the address, what arrived and whether the connection has ended. -/
lemma kept_read {a a' : SocketStream} {item} (h : a.read crates crypto = some (a', item)) :
    a'.remoteAddr = a.remoteAddr ∧ a'.arrived = a.arrived ∧ a'.closed = a.closed := by
  obtain ⟨remoteAddr, arrived, unread, closed, reading⟩ := a
  cases reading with
  | length =>
    simp only [SocketStream.read] at h
    split at h
    case h_1 => cases h; exact ⟨rfl, rfl, rfl⟩
    case h_2 =>
      split at h
      case isTrue => cases h; exact ⟨rfl, rfl, rfl⟩
      case isFalse => cases h
  | body =>
    simp only [SocketStream.read] at h
    split at h
    case h_1 => split at h <;> cases h <;> exact ⟨rfl, rfl, rfl⟩
    case h_2 =>
      split at h
      case isTrue => cases h; exact ⟨rfl, rfl, rfl⟩
      case isFalse => cases h
  | returned => cases h

/-- A connection that changes and keeps a property. -/
lemma map_set_eq {α : Type*} (f : SocketStream → α) {l : List SocketStream} {i a a'}
    (ha : l[i]? = some a) (h : f a' = f a) : (l.set i a').map f = l.map f := by
  obtain ⟨hi, rfl⟩ := List.getElem?_eq_some_iff.mp ha
  rw [List.map_set, h, ← List.getElem_map f (h := by simpa using hi)]
  exact List.set_getElem_self _

/-! ## All connections -/

namespace Listening

/-- Each connection has delivered what its task has read, each item sent is in one place, and it
    came on an accepted connection. -/
structure Inv (s : Listening) : Prop where
  held : ∀ i (a : SocketStream), s.accepted[i]? = some a → a.Holds crates crypto (s.sentBy i)
  placed : (s.called ++ s.pending).Perm s.sent
  known : ∀ item ∈ s.sent, item.1 < s.accepted.length

/-- A connection that changes without a delivery. -/
lemma Inv.set {s : Listening} (h : s.Inv crates crypto) {i} {a' : SocketStream}
    (ha' : a'.Holds crates crypto (s.sentBy i)) :
    Inv crates crypto { s with accepted := s.accepted.set i a' } where
  held j b hb := by
    rw [List.getElem?_set] at hb
    split at hb
    case isTrue e =>
      subst e
      split at hb
      case isTrue =>
        cases hb
        exact ha'
      case isFalse => cases hb
    case isFalse => exact h.held j b hb
  placed := h.placed
  known item hitem := by
    rw [List.length_set]
    exact h.known item hitem

/-- An item goes from one place to the next. -/
lemma Inv.move {s s' : Listening} (h : s.Inv crates crypto) (haccepted : s'.accepted = s.accepted)
    (hsent : s'.sent = s.sent) (hmove : (s'.called ++ s'.pending).Perm (s.called ++ s.pending)) :
    s'.Inv crates crypto where
  held := by
    rw [haccepted]
    intro i a ha
    have e : s'.sentBy i = s.sentBy i := by rw [sentBy, hsent, sentBy]
    rw [e]
    exact h.held i a ha
  placed := by
    rw [hsent]
    exact hmove.trans h.placed
  known := by
    rw [hsent, haccepted]
    exact h.known

/-- The invariant holds when the listener is made. -/
lemma inv_new : Inv crates crypto new where
  held i a h := by cases h
  placed := List.Perm.refl []
  known item h := by cases h

/-- What a connection has delivered after a step of a task. -/
lemma sentBy_read (s : Listening) (i a item j) :
    (s.read i a item).sentBy j = s.sentBy j ++ if j = i then item.toList else [] := by
  simp only [sentBy, read, List.filter_append, List.map_append, List.append_cancel_left_eq]
  cases item with
  | none => simp
  | some item =>
    by_cases e : j = i
    · simp [e]
    · simp [e, Ne.symm e]

/-- One event keeps the invariant. -/
lemma inv_step {s s' : Listening} {e} (h : s.Inv crates crypto)
    (hstep : ListenStep crates crypto s e s') :
    s'.Inv crates crypto := by
  cases hstep with
  | bind => exact ⟨h.held, h.placed, h.known⟩
  | acceptFailed => exact ⟨h.held, h.placed, h.known⟩
  | @accept remoteAddr =>
    refine ⟨?_, h.placed, ?_⟩
    · intro i a ha
      rw [accept, List.getElem?_append] at ha
      split at ha
      case isTrue => exact h.held i a ha
      case isFalse hi =>
        -- nothing came on the new connection yet
        have hnone : s.sentBy i = [] := by
          rw [sentBy, List.map_eq_nil_iff, List.filter_eq_nil_iff]
          intro item hitem e
          have hlt := h.known item hitem
          rw [of_decide_eq_true e] at hlt
          exact hi hlt
        rw [List.getElem?_singleton] at ha
        split at ha
        case isTrue =>
          cases ha
          have e : (s.accept remoteAddr).sentBy i = s.sentBy i := rfl
          rw [e, hnone]
          exact SocketStream.holds_new crates crypto remoteAddr
        case isFalse => cases ha
    · intro item hitem
      rw [accept, List.length_append]
      exact Nat.lt_add_right _ (h.known item hitem)
  | arrive ha hopen => exact h.set crates crypto ((h.held _ _ ha).arrive crates crypto hopen _)
  | close ha => exact h.set crates crypto ((h.held _ _ ha).close crates crypto)
  | @read i a a' item ha hread =>
    refine ⟨?_, ?_, ?_⟩
    · intro j b hb
      rw [sentBy_read]
      rw [read, List.getElem?_set] at hb
      split at hb
      case isTrue e =>
        subst e
        split at hb
        case isTrue =>
          cases hb
          rw [if_pos rfl]
          exact (h.held i a ha).read crates crypto hread
        case isFalse => cases hb
      case isFalse e =>
        rw [if_neg (Ne.symm e), List.append_nil]
        exact h.held j b hb
    · have hplaced := h.placed.append_right (item.toList.map (i, ·))
      simpa only [pending, read, List.append_assoc] using hplaced
    · intro item' hitem
      rw [read, List.length_set]
      rcases List.mem_append.mp hitem with hitem | hitem
      · exact h.known item' hitem
      · obtain ⟨_, _, rfl⟩ := List.mem_map.mp hitem
        exact (List.getElem?_eq_some_iff.mp ha).1
  | recv hchannel =>
    refine h.move crates crypto rfl rfl ?_
    simp [pending, hchannel]
  | @post pre item post hblocking =>
    refine h.move crates crypto rfl rfl ?_
    apply List.Perm.append_left
    simp only [pending, hblocking, List.append_assoc, List.cons_append, List.nil_append]
    apply List.Perm.append_left
    exact (@List.perm_middle _ item pre _).symm
  | call hqueue =>
    refine h.move crates crypto rfl rfl ?_
    simp [pending, hqueue]

/-- The invariant holds in every run. -/
lemma inv_run {es : List ListenEvent} {s : Listening}
    (r : Run (ListenStep crates crypto) new es s) :
    s.Inv crates crypto :=
  r.invariant (inv_new crates crypto) (inv_step crates crypto)

/-- The items of one connection are with the callback or on their way to it. -/
lemma Inv.calledBy_append {s : Listening} (h : s.Inv crates crypto) (i) :
    (s.calledBy i ++ (s.pending.filter (·.1 = i)).map Prod.snd).Perm (s.sentBy i) := by
  rw [calledBy, sentBy, ← List.map_append, ← List.filter_append]
  exact (h.placed.filter _).map _

/-! ## How a listener comes to rest -/

/-- A listener is idle when all that arrived is read and all items were handed to the callback. -/
lemma idle_iff {s : Listening} :
    s.Idle crates crypto ↔ (∀ a ∈ s.accepted, a.read crates crypto = none) ∧ s.pending = [] := by
  constructor
  · intro h
    refine ⟨?_, ?_⟩
    · intro a ha
      by_contra hne
      obtain ⟨⟨a', item⟩, hread⟩ := Option.ne_none_iff_exists'.mp hne
      obtain ⟨i, hi⟩ := List.getElem?_of_mem ha
      exact h (.read i) _ (.read hi hread) trivial
    · by_contra hne
      -- the first item of the foremost place that has one can go on
      cases hqueue : s.queue with
      | cons item rest => exact h .call _ (.call hqueue) trivial
      | nil =>
        cases hblocking : s.blocking with
        | cons item rest =>
          have hfirst : s.blocking = [] ++ item :: rest := hblocking
          exact h (.post item) _ (.post hfirst) trivial
        | nil =>
          cases hchannel : s.channel with
          | cons item rest => exact h .recv _ (.recv hchannel) trivial
          | nil => exact hne (by rw [pending, hqueue, hblocking, hchannel]; rfl)
  · rintro ⟨hread, hpending⟩ e s' hstep hint
    obtain ⟨hrest, hchannel⟩ := List.append_eq_nil_iff.mp hpending
    obtain ⟨hqueue, hblocking⟩ := List.append_eq_nil_iff.mp hrest
    cases hstep with
    | bind => exact hint
    | acceptFailed => exact hint
    | accept => exact hint
    | arrive => exact hint
    | close => exact hint
    | read ha hsome =>
      rw [hread _ (List.mem_of_getElem? ha)] at hsome
      cases hsome
    | recv e => simp [hchannel] at e
    | post e => simp [hblocking] at e
    | call e => simp [hqueue] at e

end Listening

/-- How much a task may still do: a step for each byte at most, and three more for an item. -/
def SocketStream.remaining (a : SocketStream) : ℕ :=
  2 * a.unread.length +
    match a.reading with
    | .length => 1
    | .body _ => 5
    | .returned _ => 0

/-- How much is left to do before the listener is idle. -/
def Listening.remaining (s : Listening) : ℕ :=
  (s.accepted.map SocketStream.remaining).sum + 3 * s.channel.length + 2 * s.blocking.length +
    s.queue.length

/-- A step of a task leaves it less to do, by what its item needs. -/
lemma SocketStream.remaining_read {a a' : SocketStream} {item}
    (hread : a.read crates crypto = some (a', item)) :
    a'.remaining + 3 * item.toList.length < a.remaining := by
  obtain ⟨remoteAddr, arrived, unread, closed, reading⟩ := a
  cases reading with
  | length =>
    simp only [SocketStream.read] at hread
    split at hread
    case h_1 msgLen rest hlen =>
      cases hread
      obtain ⟨_, rfl⟩ := readBe_eq_some.mp hlen
      simp only [SocketStream.remaining, List.length_append, length_be, Option.toList_none,
        List.length_nil]
      omega
    case h_2 =>
      split at hread
      case isFalse => cases hread
      case isTrue =>
        cases hread
        simp [SocketStream.remaining]
  | body n =>
    simp only [SocketStream.read] at hread
    split at hread
    case h_1 buffer rest hbuffer =>
      obtain ⟨_, rfl⟩ := readExact_eq_some.mp hbuffer
      split at hread
      case h_1 =>
        cases hread
        simp only [SocketStream.remaining, List.length_append, Option.toList_none, List.length_nil]
        omega
      case h_2 =>
        cases hread
        have hitem : item.toList.length ≤ 1 := by cases item <;> simp
        simp only [SocketStream.remaining, List.length_append]
        omega
    case h_2 =>
      split at hread
      case isFalse => cases hread
      case isTrue =>
        cases hread
        simp [SocketStream.remaining]
  | returned => cases hread

/-- A sum over a list in which one entry changes. -/
lemma sum_map_set {α : Type*} (f : α → ℕ) {l : List α} {i a} (h : l[i]? = some a) (a') :
    ((l.set i a').map f).sum + f a = (l.map f).sum + f a' := by
  induction l generalizing i with
  | nil => cases h
  | cons b l ih =>
    cases i with
    | zero =>
      cases h
      simp only [List.set_cons_zero, List.map_cons, List.sum_cons]
      omega
    | succ i =>
      have hrest := ih (i := i) h
      simp only [List.set_cons_succ, List.map_cons, List.sum_cons]
      omega

/-- Every step of a task and every call leaves the listener less to do. -/
lemma Listening.remaining_lt {s s' : Listening} {e} (hstep : ListenStep crates crypto s e s')
    (hint : e.Internal) : s'.remaining < s.remaining := by
  cases hstep with
  | bind => exact hint.elim
  | acceptFailed => exact hint.elim
  | accept => exact hint.elim
  | arrive => exact hint.elim
  | close => exact hint.elim
  | @read i a a' item ha hread =>
    have hsum := sum_map_set SocketStream.remaining ha a'
    have hlt := a.remaining_read crates crypto hread
    simp only [remaining, Listening.read, List.length_append, List.length_map]
    omega
  | recv hchannel =>
    simp only [remaining, hchannel, List.length_cons, List.length_append, List.length_nil]
    omega
  | post hblocking =>
    simp only [remaining, hblocking, List.length_cons, List.length_append, List.length_nil]
    omega
  | call hqueue =>
    simp only [remaining, hqueue, List.length_cons]
    omega

/-- **The listener.** In every run, however the bytes of the connections are cut into pieces and in
    whatever order they arrive, tasks take their steps and items are posted, what a connection
    delivered is what `receive` delivers first from its own bytes, and each item is with the
    callback or on its way to it, once. A task that returned did what `receive` does. Every step of
    a task brings the listener closer to its rest, and there the callback has had, from each
    connection, exactly what `receive` delivers. -/
theorem listening_run {es : List ListenEvent} {s : Listening}
    (r : Run (ListenStep crates crypto) .new es s) :
    (∀ i a, s.accepted[i]? = some a → ∃ delivered,
      (s.calledBy i ++ (s.pending.filter (·.1 = i)).map Prod.snd).Perm delivered ∧
      delivered <+: (receive crates crypto a.remoteAddr receiverHeld a.arrived).delivered ∧
      ∀ exit, a.reading = .returned exit →
        receive crates crypto a.remoteAddr receiverHeld a.arrived = ⟨delivered, exit⟩) ∧
    (∀ item ∈ s.called, item.1 < s.accepted.length) ∧
    (∀ e s', ListenStep crates crypto s e s' → e.Internal → s'.remaining < s.remaining) ∧
    (s.Idle crates crypto → ∀ i a, s.accepted[i]? = some a →
      (s.calledBy i).Perm (receive crates crypto a.remoteAddr receiverHeld a.arrived).delivered) := by
  have h := Listening.inv_run crates crypto r
  refine ⟨?_, ?_, fun e s' => Listening.remaining_lt crates crypto, ?_⟩
  · intro i a ha
    have hheld := h.held i a ha
    refine ⟨s.sentBy i, h.calledBy_append crates crypto i, hheld.isPrefix crates crypto, ?_⟩
    intro exit hexit
    rw [hheld.receive_eq crates crypto, SocketStream.goesOn, hexit]
  · intro item hitem
    exact h.known item (h.placed.subset (List.mem_append_left _ hitem))
  · intro hidle i a ha
    obtain ⟨hread, hpending⟩ := (Listening.idle_iff crates crypto).mp hidle
    have hall := h.calledBy_append crates crypto i
    rw [hpending, List.filter_nil, List.map_nil, List.append_nil] at hall
    rwa [(h.held i a ha).of_read_eq_none crates crypto (hread a (List.mem_of_getElem? ha))] at hall

end

/-- A text that comes in two pieces. -/
def hiEvents : List ListenEvent :=
  [.bind, .accept sampleAddr, .arrive 0 [0, 0, 0], .arrive 0 [2, 104, 105], .read 0, .read 0, .recv,
    .post (0, ⟨"hi", sampleAddr, none⟩), .call]

/-- The text is handed to the callback, and nothing else. -/
theorem listening_run_hiEvents : ∃ s : Listening,
    Run (ListenStep (standIn fun _ _ => true) standInCrypto) .new hiEvents s ∧
      (s.calledBy 0).Perm (receive (standIn fun _ _ => true) standInCrypto sampleAddr receiverHeld
        [0, 0, 0, 2, 104, 105]).delivered ∧ s.calledBy 0 = [⟨"hi", sampleAddr, none⟩] := by
  have hframe : handleFrame (standIn fun _ _ => true) standInCrypto sampleAddr [104, 105] =
      .ok (some ⟨"hi", sampleAddr, none⟩) := by
    have e : ([104, 105] : Bytes) = utf8 "hi" := by decide
    rw [handleFrame, if_neg (by decide), e, fromUtf8_utf8]
  have hread : SocketStream.read (standIn fun _ _ => true) standInCrypto
      ⟨sampleAddr, [0, 0, 0, 2, 104, 105], [104, 105], false, .body 2⟩ =
        some (⟨sampleAddr, [0, 0, 0, 2, 104, 105], [], false, .length⟩,
          some ⟨"hi", sampleAddr, none⟩) := by
    have hbuffer : readExact 2 ([104, 105] : Bytes) = some ([104, 105], []) := rfl
    simp only [SocketStream.read, hbuffer, hframe]
  have hrun : ∃ s : Listening, Run (ListenStep (standIn fun _ _ => true) standInCrypto) .new hiEvents s ∧
      s.accepted = [⟨sampleAddr, [0, 0, 0, 2, 104, 105], [], false, .length⟩] ∧ s.pending = [] ∧
      s.calledBy 0 = [⟨"hi", sampleAddr, none⟩] := by
    refine ⟨_, ((((((((Run.refl.tail (.bind rfl)).tail (.accept rfl)).tail (.arrive rfl rfl)).tail
      (.arrive rfl rfl)).tail (.read rfl rfl)).tail (.read rfl hread)).tail (.recv rfl)).tail
      (.post (List.nil_append [_]).symm)).tail (.call rfl), rfl, rfl, rfl⟩
  obtain ⟨s, r, haccepted, hpending, hcalled⟩ := hrun
  have hidle : s.Idle (standIn fun _ _ => true) standInCrypto := by
    rw [Listening.idle_iff, haccepted]
    exact ⟨List.forall_mem_singleton.mpr rfl, hpending⟩
  refine ⟨s, r, ?_, hcalled⟩
  exact (listening_run _ _ r).2.2.2 hidle 0 _ (by rw [haccepted]; rfl)

end ShardusNet.Wire
