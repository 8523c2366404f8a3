import ShardusNet.Lib.Pieces
import ShardusNet.Transport.Carried
import ShardusNet.Wire.Listening
/-!
# From senders to a callback

Any number of senders and one listener, and TCP between them: a connection is accepted for a stream
that a sender opened to the address of the listener, and the bytes of the stream arrive in order, in
pieces, as far as the network brings them.

In every run the callbacks are for sends, each at most once, and for none whose result is `Err`;
when all bytes have arrived and nothing is left to do, each send with the result `Ok` has had its
callback (`endToEnd`).
-/

namespace ShardusNet.Transport
open Wire ByteCodec Framing Pieces Runs

/-! ## The system -/

variable {ι L ε : Type*} {lru : LruCrate L} {find : L → SocketAddr → Option ℕ}

/-- Senders, a listener, and for each connection it accepted the sender and its stream. -/
structure System (ι L ε : Type*) where
  senders : ι → Sender L ε
  listener : Listening
  streams : List (ι × ℕ)

/-- The system at its start. -/
def System.new (lru : LruCrate L) (useLru : ι → Bool) (lruSize : ι → ℕ+) : System ι L ε where
  senders n := .new (createConnections lru (useLru n) (lruSize n))
  listener := .new
  streams := []

/-- What happens in a system. -/
inductive SystemEvent (ι ε : Type*) where
  | sender (n : ι) (e : Event ε)
  | listener (e : ListenEvent)

/-- It does not depend on the network. -/
def Local : ListenEvent → Prop
  | .accept _ => False
  | .arrive _ _ => False
  | _ => True

section
variable [DecidableEq ι] (lru) (crates : Crates) (crypto : ShardusCrypto) (address : SocketAddr)

/-- One event. Senders reuse no stream on which a write was cut short; a connection is accepted for
    a stream to the address of the listener, once; what arrives on it is the next bytes on the
    stream. -/
inductive SystemStep : System ι L ε → SystemEvent ι ε → System ι L ε → Prop
  | sender {s n e s'} (hstep : Sender.CleanStep lru (s.senders n) e s') :
    SystemStep s (.sender n e) { s with senders := Function.update s.senders n s' }
  | accept {s n stream remoteAddr l}
    (hopened : (s.senders n).net.opened[stream]? = some address) (hnew : (n, stream) ∉ s.streams)
    (hstep : ListenStep crates crypto s.listener (.accept remoteAddr) l) :
    SystemStep s (.listener (.accept remoteAddr))
      { s with listener := l, streams := s.streams ++ [(n, stream)] }
  | arrive {s i n stream a bytes l} (hstream : s.streams[i]? = some (n, stream))
    (ha : s.listener.accepted[i]? = some a)
    (hbytes : a.arrived ++ bytes <+: (s.senders n).net.bytesOn stream)
    (hstep : ListenStep crates crypto s.listener (.arrive i bytes) l) :
    SystemStep s (.listener (.arrive i bytes)) { s with listener := l }
  | listener {s e l} (hlocal : Local e) (hstep : ListenStep crates crypto s.listener e l) :
    SystemStep s (.listener e) { s with listener := l }

end

/-- Every stream to the address was accepted, and all its bytes arrived. -/
def System.AllArrived (s : System ι L ε) (address : SocketAddr) : Prop :=
  ∀ n stream, (s.senders n).net.opened[stream]? = some address → ∃ (i : ℕ) (a : SocketStream),
    s.streams[i]? = some (n, stream) ∧ s.listener.accepted[i]? = some a ∧
      a.arrived = (s.senders n).net.bytesOn stream

/-! ## The invariant -/

/-- A network that grew has more bytes on its streams. -/
lemma Net.Extends.bytesOn {net net' : Net} {P} (h : net.Extends net' P) (stream) :
    net.bytesOn stream <+: net'.bytesOn stream := by
  obtain ⟨_, ws, _, hwritten, _⟩ := h
  rw [Net.bytesOn, Net.bytesOn, Net.writesOn, Net.writesOn, hwritten, List.filter_append,
    List.flatMap_append]
  exact List.prefix_append _ _

/-- A step of a sender keeps the streams and adds to their bytes. -/
lemma Sender.step_grows {s s' : Sender L ε} {e} (h : s.Inv find) (hstep : Step lru s e s') :
    (∀ (stream : ℕ) (address : SocketAddr), s.net.opened[stream]? =
      some address → s'.net.opened[stream]? = some address) ∧
      ∀ stream, s.net.bytesOn stream <+: s'.net.bytesOn stream := by
  have hsame : s'.net = s.net → (∀ (stream : ℕ) (address : SocketAddr),
      s.net.opened[stream]? = some address → s'.net.opened[stream]? = some address) ∧
        ∀ stream, s.net.bytesOn stream <+: s'.net.bytesOn stream := by
    intro e
    rw [e]
    exact ⟨fun _ _ ho => ho, fun _ => List.prefix_refl _⟩
  cases hstep with
  | send => exact hsame rfl
  | evictSocket => exact hsame rfl
  | recvSend => exact hsame rfl
  | spawn => exact hsame rfl
  | recvEvict => exact hsame rfl
  | remove => exact hsame rfl
  | lock => exact hsame rfl
  | complete => exact hsame rfl
  | io htask hstage hrunning hconn hcut =>
    obtain ⟨_, _, hext⟩ := io_spec h.connected h.worked htask hstage hrunning hconn hcut rfl
    exact ⟨fun _ _ => hext.opened, hext.bytesOn⟩

/-- What holds in every state of a system. -/
structure System.Inv (crates : Crates) (crypto : ShardusCrypto) (find : L → SocketAddr → Option ℕ)
    (address : SocketAddr) (s : System ι L ε) : Prop where
  sender : ∀ n, (s.senders n).Inv find ∧ (s.senders n).Apart ∧ (s.senders n).AllFramed
  listener : s.listener.Inv crates crypto
  nodup : s.streams.Nodup
  length : s.streams.length = s.listener.accepted.length
  arrived : ∀ (i : ℕ) n stream (a : SocketStream), s.streams[i]? = some (n, stream) →
    s.listener.accepted[i]? = some a → (s.senders n).net.opened[stream]? = some address ∧
      a.arrived <+: (s.senders n).net.bytesOn stream

section
variable {crates : Crates} {crypto : ShardusCrypto} {address : SocketAddr}

/-- What does not depend on the network keeps what arrived on each connection. -/
lemma arrived_local {l l' : Listening} {e} (hlocal : Local e)
    (hstep : ListenStep crates crypto l e l') :
    l'.accepted.map SocketStream.arrived = l.accepted.map SocketStream.arrived := by
  cases hstep with
  | accept => exact hlocal.elim
  | arrive => exact hlocal.elim
  | bind => rfl
  | acceptFailed => rfl
  | close ha => exact map_set_eq _ ha rfl
  | read ha hread => exact map_set_eq _ ha (kept_read hread).2.1
  | recv => rfl
  | post => rfl
  | call => rfl

/-- The start of a system. -/
lemma System.inv_new (hlru : lru.Lawful find) (useLru : ι → Bool) (lruSize : ι → ℕ+) :
    (System.new lru useLru lruSize : System ι L ε).Inv crates crypto find address where
  sender n := ⟨Sender.inv_new hlru _ _, Sender.apart_new _, fun _ => framed_nil⟩
  listener := Listening.inv_new crates crypto
  nodup := List.nodup_nil
  length := rfl
  arrived i _ _ _ h := by cases h

section
variable [DecidableEq ι]

/-- One event keeps the invariant. -/
lemma System.inv_step (hlru : lru.Lawful find) {s s' : System ι L ε} {e}
    (h : s.Inv crates crypto find address) (hstep : SystemStep lru crates crypto address s e s') :
    s'.Inv crates crypto find address := by
  cases hstep with
  | @sender n e s' hstep =>
    obtain ⟨hinv, hapart, hframed⟩ := h.sender n
    obtain ⟨hopened, hbytes⟩ := Sender.step_grows hinv hstep.1
    refine ⟨?_, h.listener, h.nodup, h.length, ?_⟩
    · intro m
      simp only [Function.update_apply]
      split
      case isTrue =>
        exact ⟨Sender.inv_step hlru hinv hstep.1, Sender.apart_step hlru hinv hapart hstep.1,
          (Sender.allFramed_step_iff hapart hstep.1).mpr ⟨hframed, hstep.2⟩⟩
      case isFalse => exact h.sender m
    · intro i m stream a hstream ha
      obtain ⟨ho, hprefix⟩ := h.arrived i m stream a hstream ha
      simp only [Function.update_apply]
      split
      case isTrue e =>
        subst e
        exact ⟨hopened stream address ho, hprefix.trans (hbytes stream)⟩
      case isFalse => exact ⟨ho, hprefix⟩
  | @accept n stream remoteAddr l hopened hnew hstep =>
    have hlistener := Listening.inv_step crates crypto h.listener hstep
    cases hstep with
    | accept =>
      refine ⟨h.sender, hlistener, ?_, ?_, ?_⟩
      · rw [List.nodup_append]
        refine ⟨h.nodup, List.nodup_singleton _, ?_⟩
        rintro x hx y hy rfl
        rw [List.mem_singleton] at hy
        exact hnew (hy ▸ hx)
      · simp [Listening.accept, h.length]
      · intro i m stream' a hstream ha
        simp only [Listening.accept, List.getElem?_append, h.length] at hstream ha
        split at hstream
        case isTrue hi =>
          rw [if_pos hi] at ha
          exact h.arrived i m stream' a hstream ha
        case isFalse hi =>
          rw [if_neg hi, List.getElem?_singleton] at ha
          rw [List.getElem?_singleton] at hstream
          split at hstream
          case isTrue hzero =>
            rw [if_pos hzero] at ha
            cases hstream
            cases ha
            exact ⟨hopened, List.nil_prefix⟩
          case isFalse => cases hstream
  | @arrive i n stream a bytes l hstream ha hbytes hstep =>
    have hlistener := Listening.inv_step crates crypto h.listener hstep
    cases hstep with
    | @arrive _ a' _ ha' hopen =>
      rw [ha] at ha'
      cases ha'
      refine ⟨h.sender, hlistener, h.nodup, by rw [List.length_set]; exact h.length, ?_⟩
      intro j m stream' b hstream' hb
      rw [List.getElem?_set] at hb
      split at hb
      case isTrue e =>
        subst e
        split at hb
        case isTrue =>
          cases hb
          rw [hstream] at hstream'
          cases hstream'
          exact ⟨(h.arrived i n stream a hstream ha).1, hbytes⟩
        case isFalse => cases hb
      case isFalse => exact h.arrived j m stream' b hstream' hb
  | @listener e l hlocal hstep =>
    have hlistener := Listening.inv_step crates crypto h.listener hstep
    have hmap := arrived_local hlocal hstep
    refine ⟨h.sender, hlistener, h.nodup, ?_, ?_⟩
    · have hlen := congrArg List.length hmap
      rw [List.length_map, List.length_map] at hlen
      rw [hlen]
      exact h.length
    · intro i n stream a hstream ha
      have hi := congrArg (·[i]?) hmap
      simp only [List.getElem?_map, ha, Option.map_some] at hi
      obtain ⟨b, hb, e⟩ := Option.map_eq_some_iff.mp hi.symm
      rw [← e]
      exact h.arrived i n stream b hstream hb

/-- The invariant holds in every run. -/
lemma System.inv_run (hlru : lru.Lawful find) {useLru : ι → Bool} {lruSize : ι → ℕ+}
    {es : List (SystemEvent ι ε)} {s : System ι L ε}
    (r : Run (SystemStep lru crates crypto address) (.new lru useLru lruSize) es s) :
    s.Inv crates crypto find address :=
  r.invariant (System.inv_new hlru useLru lruSize) (System.inv_step hlru)

end

/-! ## From a stream to the callback -/

variable {keyPair : KeyPair}

/-- The send carries what a listener delivers: a text without a header that does not begin with the
    marker, or a signed message whose header is within the limit. -/
def Sendable (crates : Crates) (crypto : ShardusCrypto) (keyPair : KeyPair) (q : QueuedSend) :
    Prop :=
  q.data.length < 2 ^ 32 ∧
    ∀ remoteAddr, ∃ item, Sent crates crypto keyPair remoteAddr q.data (some item)

/-- What is delivered names the connection it came on. -/
lemma remoteAddr_of_sent {remoteAddr body item}
    (h : Sent crates crypto keyPair remoteAddr body (some item)) :
      item.remoteAddr = remoteAddr := by
  cases h <;> rfl

/-- The loop over the frames of some sends delivers what they carry, in order. -/
lemma run_of_sendable (hk : keyPair.Opens crates) {remoteAddr last sent} {qs : List QueuedSend}
    (h : ∀ q ∈ qs, Sendable crates crypto keyPair q) :
    List.Forall₂ (fun q item => Sent crates crypto keyPair remoteAddr q.data (some item)) qs
      (run crates crypto remoteAddr receiverHeld last sent (qs.map QueuedSend.data)).delivered := by
  induction qs generalizing sent with
  | nil => exact .nil
  | cons q qs ih =>
    obtain ⟨⟨hlen, hsent⟩, hqs⟩ := List.forall_mem_cons.mp h
    obtain ⟨item, hitem⟩ := hsent remoteAddr
    have hheld : receiverHeld sent = false := rfl
    rw [List.map_cons, run, hitem.handled crates crypto keyPair remoteAddr hk hlen]
    simp only [hheld, Bool.false_eq_true, if_false]
    exact .cons hitem (ih hqs)

/-- What a connection delivered, as sends its stream carries: the first ones, and all of them when
    all bytes arrived and were read. -/
lemma Sender.Inv.delivered {s : Sender L ε} (hinv : s.Inv find) (hframed : s.AllFramed)
    (hk : keyPair.Opens crates) (hsend : ∀ q ∈ s.queued, Sendable crates crypto keyPair q)
    {stream} {a : SocketStream} {items} (harrived : a.arrived <+: s.net.bytesOn stream)
    (hheld : a.Holds crates crypto items) :
    ∃ sends, sends <+: s.carried stream ∧
      List.Forall₂ (fun q item => Sent crates crypto keyPair a.remoteAddr q.data (some item)) sends
        items ∧
      (a.read crates crypto = none → a.arrived = s.net.bytesOn stream → sends =
        s.carried stream) := by
  have hdata : ∀ q ∈ s.queued, q.data.length < 2 ^ 32 := fun q hq => (hsend q hq).1
  have hframes := hinv.frames_bytesOn hframed hdata stream a.arrived.length
  rw [← List.prefix_iff_eq_take.mp harrived, ← List.map_take] at hframes
  generalize hcount : wholeCount a.arrived.length ((s.carried stream).map QueuedSend.data) = count
    at hframes
  have hcarried : ∀ q ∈ (s.carried stream).take count, Sendable crates crypto keyPair q := by
    intro q hq
    exact hsend q (Sender.queued_of_spawned (hinv.mem_carried.mp (List.mem_of_mem_take hq)).1)
  have hall := @run_of_sendable crates crypto keyPair hk a.remoteAddr (endOf (leftover a.arrived)) 0 _
    hcarried
  rw [← hframes, ← receive_eq_run] at hall
  refine ⟨((s.carried stream).take count).take items.length, ?_, ?_, ?_⟩
  · exact (List.take_prefix _ _).trans (List.take_prefix _ _)
  · have htake := List.forall₂_take items.length hall
    rwa [← List.prefix_iff_eq_take.mp (hheld.isPrefix crates crypto)] at htake
  · intro hread hbytes
    have hcount' : count = (s.carried stream).length := by
      rw [← hcount, hbytes, hinv.wholeCount_bytesOn hframed]
    rw [hheld.of_read_eq_none crates crypto hread, ← hall.length_eq, List.take_length, hcount',
      List.take_length]

/-- What an item of the callback has to do with a send: it is what the data of the send carry. -/
def CallbackOf (crates : Crates) (crypto : ShardusCrypto) (keyPair : ι → KeyPair)
    (origin : ι × QueuedSend) (item : ℕ × Delivery) : Prop :=
  Sent crates crypto (keyPair origin.1) item.2.remoteAddr origin.2.data (some item.2)

/-- It came on a connection of the sender. -/
def System.Brought (s : System ι L ε) (crates : Crates) (crypto : ShardusCrypto)
    (keyPair : ι → KeyPair)
    (origin : ι × QueuedSend) (item : ℕ × Delivery) : Prop :=
  ∃ stream a, s.streams[item.1]? = some (origin.1, stream) ∧ s.listener.accepted[item.1]? = some a ∧
    Sent crates crypto (keyPair origin.1) a.remoteAddr origin.2.data (some item.2)

/-- What is delivered names the address of its connection. -/
lemma System.Brought.callbackOf {s : System ι L ε} {keyPair : ι → KeyPair} {origin item}
    (h : s.Brought crates crypto keyPair origin item) :
      CallbackOf crates crypto keyPair origin item := by
  obtain ⟨_, _, _, _, hsent⟩ := h
  rw [CallbackOf, remoteAddr_of_sent hsent]
  exact hsent

/-- Every send of the system carries what a listener delivers. -/
def System.AllSendable (s : System ι L ε) (crates : Crates) (crypto : ShardusCrypto)
    (keyPair : ι → KeyPair) : Prop :=
  ∀ n, ∀ q ∈ (s.senders n).queued, Sendable crates crypto (keyPair n) q

/-- The sends behind what a connection delivered. -/
lemma System.Inv.origin_connection {s : System ι L ε} {keyPair : ι → KeyPair}
    (h : s.Inv crates crypto find address) (hk : ∀ n, (keyPair n).Opens crates)
    (hsend : s.AllSendable crates crypto keyPair) (i : ℕ) :
    ∃ origin : List (ι × QueuedSend), origin.Nodup ∧
      (∀ x ∈ origin, ∃ stream, s.streams[i]? = some (x.1, stream) ∧
        x.2 ∈ (s.senders x.1).carried stream) ∧
      List.Forall₂ (s.Brought crates crypto keyPair) origin (s.listener.sent.filter (·.1 = i)) ∧
      (s.listener.Idle crates crypto → s.AllArrived address → ∀ n stream q,
        s.streams[i]? = some (n, stream) → q ∈ (s.senders n).carried stream → (n, q) ∈ origin) := by
  cases hstream : s.streams[i]? with
  | none =>
    -- nothing comes on a connection that was not accepted
    have hnone : s.listener.sent.filter (·.1 = i) = [] := by
      rw [List.filter_eq_nil_iff]
      intro item hitem e
      have hlt := h.listener.known item hitem
      rw [of_decide_eq_true e, ← h.length] at hlt
      exact absurd hlt (Nat.not_lt_of_le (List.getElem?_eq_none_iff.mp hstream))
    refine ⟨[], List.nodup_nil, ?_, hnone ▸ .nil, ?_⟩
    · intro x hx
      cases hx
    · intro _ _ n stream q e
      cases e
  | some p =>
    obtain ⟨n, stream⟩ := p
    have hi : i < s.listener.accepted.length := by
      rw [← h.length]
      exact (List.getElem?_eq_some_iff.mp hstream).1
    have ha : s.listener.accepted[i]? = some s.listener.accepted[i] := List.getElem?_eq_getElem hi
    obtain ⟨hopened, harrived⟩ := h.arrived i n stream _ hstream ha
    obtain ⟨hinv, _, hframed⟩ := h.sender n
    obtain ⟨sends, hprefix, hsends, hall⟩ :=
      hinv.delivered hframed (hk n) (hsend n) harrived (h.listener.held i _ ha)
    refine ⟨sends.map (n, ·), ?_, ?_, ?_, ?_⟩
    · exact (List.Nodup.sublist hprefix.sublist (hinv.carried_once.1 stream)).map
        fun _ _ e => (Prod.mk.inj e).2
    · intro x hx
      obtain ⟨q, hq, rfl⟩ := List.mem_map.mp hx
      exact ⟨stream, rfl, hprefix.subset hq⟩
    · rw [Listening.sentBy, List.forall₂_map_right_iff] at hsends
      rw [List.forall₂_map_left_iff]
      have hitems : ∀ item ∈ s.listener.sent.filter (·.1 = i), item.1 = i :=
        fun item hitem => of_decide_eq_true (List.mem_filter.mp hitem).2
      apply List.Forall₂.flip
      refine ((List.forall₂_and_left _ _).mpr ⟨hitems, List.Forall₂.flip hsends⟩).imp ?_
      rintro item q ⟨rfl, hq⟩
      exact ⟨stream, _, hstream, ha, hq⟩
    · intro hidle harrivedAll m stream' q e hq
      cases e
      obtain ⟨j, b, hj, hb, hbytes⟩ := harrivedAll n stream hopened
      have hij : j = i := by
        have hlt := (List.getElem?_eq_some_iff.mp hj).1
        exact (List.getElem?_inj hlt h.nodup).mp (hj.trans hstream.symm)
      subst hij
      rw [ha] at hb
      cases hb
      have hread := ((Listening.idle_iff crates crypto).mp hidle).1 _ (List.mem_of_getElem? ha)
      rw [hall hread hbytes]
      exact List.mem_map_of_mem hq

/-- The sends behind the callbacks. -/
lemma System.Inv.origins {s : System ι L ε} {keyPair : ι → KeyPair}
    (h : s.Inv crates crypto find address) (hk : ∀ n, (keyPair n).Opens crates)
    (hsend : s.AllSendable crates crypto keyPair) :
    ∃ origin : List (ι × QueuedSend), origin.Nodup ∧
      List.Forall₂ (s.Brought crates crypto keyPair) origin s.listener.called ∧
      (∀ x ∈ origin, x.2 ∈ (s.senders x.1).queued ∧ x.2.address = address ∧
        ∀ err, .error err ∉ (s.senders x.1).resultsOf x.2.completeTx) ∧
      (s.listener.Idle crates crypto → s.AllArrived address →
        ∀ n, ∀ q ∈ (s.senders n).queued, q.address = address →
          .ok () ∈ (s.senders n).resultsOf q.completeTx → (n, q) ∈ origin) := by
  choose origin hnodup hcarried hcallback hcomplete using h.origin_connection hk hsend
  -- what was sent to the channel, connection by connection, and the sends behind it
  have hpieces := forall₂_flatMap (l := List.range s.listener.accepted.length) (fun i _ => hcallback i)
  have hsplit : (s.listener.called ++ s.listener.pending).Perm
      ((List.range s.listener.accepted.length).flatMap fun i => s.listener.sent.filter (·.1 = i)) :=
    h.listener.placed.trans (perm_flatMap_filter Prod.fst h.listener.known)
  obtain ⟨all, hperm, hall⟩ : ∃ all, all.Perm ((List.range s.listener.accepted.length).flatMap origin) ∧
      List.Forall₂ (s.Brought crates crypto keyPair) all (s.listener.called ++ s.listener.pending) := by
    have hcomp : Relation.Comp (List.Forall₂ (s.Brought crates crypto keyPair)) List.Perm
        ((List.range s.listener.accepted.length).flatMap origin)
        (s.listener.called ++ s.listener.pending) := ⟨_, hpieces, hsplit.symm⟩
    rw [List.forall₂_comp_perm_eq_perm_comp_forall₂] at hcomp
    obtain ⟨all, hperm, hall⟩ := hcomp
    exact ⟨all, hperm.symm, hall⟩
  have hmem : ∀ x, x ∈ all → ∃ i, x ∈ origin i := by
    intro x hx
    obtain ⟨i, _, hi⟩ := List.mem_flatMap.mp (hperm.subset hx)
    exact ⟨i, hi⟩
  have hallNodup : all.Nodup := by
    rw [hperm.nodup_iff, List.nodup_flatMap]
    refine ⟨fun i _ => hnodup i, ?_⟩
    refine List.Pairwise.imp ?_ List.nodup_range
    intro i j hne x hxi hxj
    -- a send is on one stream, and a stream is behind one connection
    obtain ⟨stream, hi, hcarriedi⟩ := hcarried i x hxi
    obtain ⟨stream', hj, hcarriedj⟩ := hcarried j x hxj
    obtain rfl := (h.sender x.1).1.carried_once.2 hcarriedi hcarriedj
    exact hne ((List.getElem?_inj (List.getElem?_eq_some_iff.mp hi).1 h.nodup).mp (hi.trans hj.symm))
  refine ⟨all.take s.listener.called.length, hallNodup.sublist (List.take_sublist _ _),
    List.forall₂_take_append _ _ _ hall, ?_, ?_⟩
  · intro x hx
    obtain ⟨i, hxi⟩ := hmem x (List.mem_of_mem_take hx)
    obtain ⟨stream, hi, hq⟩ := hcarried i x hxi
    obtain ⟨hinv, _, _⟩ := h.sender x.1
    have hlt : i < s.listener.accepted.length := by
      rw [← h.length]
      exact (List.getElem?_eq_some_iff.mp hi).1
    obtain ⟨hopened, _⟩ := h.arrived i x.1 stream _ hi (List.getElem?_eq_getElem hlt)
    refine ⟨Sender.queued_of_spawned (hinv.mem_carried.mp hq).1, ?_, ?_⟩
    · have hown := hinv.opened_of_carried hq
      rw [hopened] at hown
      exact (Option.some.inj hown).symm
    · exact fun err herr => hinv.not_carried_of_error herr stream hq
  · intro hidle harrived n q hq haddress hok
    obtain ⟨hinv, _, _⟩ := h.sender n
    obtain ⟨stream, hstream⟩ := hinv.carried_of_ok hq hok
    obtain ⟨i, a, hi, ha, _⟩ := harrived n stream (haddress ▸ hinv.opened_of_carried hstream)
    have hpending := ((Listening.idle_iff crates crypto).mp hidle).2
    rw [hpending, List.append_nil] at hall
    rw [← hall.length_eq, List.take_length, hperm.mem_iff, List.mem_flatMap]
    refine ⟨i, List.mem_range.mpr (List.getElem?_eq_some_iff.mp ha).1, ?_⟩
    exact hcomplete i hidle harrived n stream q hi hstream

/-- **End to end.** In every run of any number of senders and a listener with the same hash key in
    which no send reuses a stream on which another was cut short, whatever else fails, in whatever
    order tasks take their steps and however the bytes are cut into pieces: each callback of the
    listener is for a send to its address and carries what that send carries; no two callbacks are
    for the same send, and none is for a send with the result `Err`. When all bytes have arrived and
    nothing is left to do, every send to the address with the result `Ok` has had its callback. -/
theorem endToEnd [DecidableEq ι] {keyPair : ι → KeyPair} (hlru : lru.Lawful find)
    (hk : ∀ n, (keyPair n).Opens crates) {useLru : ι → Bool} {lruSize : ι → ℕ+}
    {es : List (SystemEvent ι ε)} {s : System ι L ε}
    (r : Run (SystemStep lru crates crypto address) (.new lru useLru lruSize) es s)
    (hsend : s.AllSendable crates crypto keyPair) :
    ∃ origin : List (ι × QueuedSend), origin.Nodup ∧
      List.Forall₂ (CallbackOf crates crypto keyPair) origin s.listener.called ∧
      (∀ x ∈ origin, x.2 ∈ (s.senders x.1).queued ∧ x.2.address = address ∧
        ∀ err, .error err ∉ (s.senders x.1).resultsOf x.2.completeTx) ∧
      (s.listener.Idle crates crypto → s.AllArrived address →
        ∀ n, ∀ q ∈ (s.senders n).queued, q.address = address →
          .ok () ∈ (s.senders n).resultsOf q.completeTx → (n, q) ∈ origin) := by
  obtain ⟨origin, hnodup, hbrought, h⟩ := (System.inv_run hlru r).origins hk hsend
  exact ⟨origin, hnodup, hbrought.imp fun _ _ hb => hb.callbackOf, h⟩

end

/-- A sender that has written nothing reuses no stream. -/
lemma not_reuses_of_written_nil {s : Sender L ε} (h : s.net.written = []) (e : Event ε) :
    ¬ s.Reuses e := by
  cases e with
  | io c io =>
    rintro ⟨_, stream, _, _, ⟨w, hw, _⟩, _⟩
    rw [Net.writesOn, h] at hw
    cases hw
  | _ => exact id

/-- A send that meets no failure, and the connection it comes on. -/
def oneSendEvents : List (SystemEvent Unit Unit) :=
  [.sender () (.send sampleQueued), .sender () .recvSend, .sender () .spawn, .sender () (.lock 0),
    .sender () (.io 0 (.ok ())), .sender () (.io 0 (.ok ())), .sender () (.complete 0),
    .listener .bind, .listener (.accept sampleAddr), .listener (.arrive 0 [0, 0, 0, 1, 97]),
    .listener (.read 0), .listener (.read 0), .listener .recv,
    .listener (.post (0, ⟨"a", sampleAddr, none⟩)), .listener .call]

/-- The send has its callback. -/
theorem endToEnd_oneSend : ∃ s : System Unit (ℕ+ × List (SocketAddr × ℕ)) Unit,
    Run (SystemStep listLru (standIn fun _ _ => true) standInCrypto sampleAddr)
      (.new listLru (fun _ => true) fun _ => 1) oneSendEvents s ∧
    ∃ origin : List (Unit × QueuedSend), origin.Nodup ∧ ((), sampleQueued) ∈ origin ∧
      List.Forall₂ (CallbackOf (standIn fun _ _ => true) standInCrypto fun _ => standInKeyPair) origin
        s.listener.called := by
  have hframe : handleFrame (standIn fun _ _ => true) standInCrypto sampleAddr [97] =
      .ok (some ⟨"a", sampleAddr, none⟩) := by
    have e : ([97] : Bytes) = utf8 "a" := by decide
    rw [handleFrame, if_neg (by decide), e, fromUtf8_utf8]
  have hread : SocketStream.read (standIn fun _ _ => true) standInCrypto
      ⟨sampleAddr, [0, 0, 0, 1, 97], [97], false, .body 1⟩ =
        some (⟨sampleAddr, [0, 0, 0, 1, 97], [], false, .length⟩, some ⟨"a", sampleAddr, none⟩) := by
    have hbuffer : readExact 1 ([97] : Bytes) = some ([97], []) := rfl
    simp only [SocketStream.read, hbuffer, hframe]
  have hok : Io.CutsShort (.ok () : Io Unit) [97] := by
    rintro fault ⟨⟩
  have hrun : ∃ s : System Unit (ℕ+ × List (SocketAddr × ℕ)) Unit,
      Run (SystemStep listLru (standIn fun _ _ => true) standInCrypto sampleAddr)
        (.new listLru (fun _ => true) fun _ => 1) oneSendEvents s ∧
      (s.senders ()).queued = [sampleQueued] ∧ (s.senders ()).results = [(0, .ok ())] ∧
      (s.senders ()).net.opened = [sampleAddr] ∧ s.streams = [((), 0)] ∧
      s.listener.accepted = [⟨sampleAddr, [0, 0, 0, 1, 97], [], false, .length⟩] ∧
      (s.senders ()).net.bytesOn 0 = [0, 0, 0, 1, 97] ∧ s.listener.pending = [] := by
    refine ⟨_, ((((((((((((((Run.refl.tail
      (.sender ⟨.send List.not_mem_nil, not_reuses_of_written_nil rfl _⟩)).tail
      (.sender ⟨.recvSend rfl rfl, id⟩)).tail (.sender ⟨.spawn rfl, id⟩)).tail
      (.sender ⟨.lock rfl rfl rfl rfl, id⟩)).tail
      (.sender ⟨.io rfl rfl rfl rfl hok, not_reuses_of_written_nil rfl _⟩)).tail
      (.sender ⟨.io rfl rfl rfl rfl hok, not_reuses_of_written_nil rfl _⟩)).tail
      (.sender ⟨.complete rfl rfl, id⟩)).tail (.listener trivial (.bind rfl))).tail
      (.accept (show (System.senders _ ()).net.opened[0]? = some _ from rfl) List.not_mem_nil
        (.accept rfl))).tail
      (.arrive rfl rfl (List.prefix_refl _) (.arrive rfl rfl))).tail
      (.listener trivial (.read rfl rfl))).tail (.listener trivial (.read rfl hread))).tail
      (.listener trivial (.recv rfl))).tail (.listener trivial (.post (show _ = [] ++ _ :: [] from rfl)))).tail
      (.listener trivial (.call rfl)), rfl, rfl, rfl, rfl, rfl, rfl, rfl⟩
  obtain ⟨s, r, hqueued, hresults, hopened, hstreams, haccepted, hbytes, hpending⟩ := hrun
  have hsend : s.AllSendable (standIn fun _ _ => true) standInCrypto fun _ => standInKeyPair := by
    intro n q hq
    rw [hqueued, List.mem_singleton] at hq
    rw [hq]
    exact ⟨by decide, fun remoteAddr => ⟨_, .headerless (s := "a") (by decide)⟩⟩
  obtain ⟨origin, hnodup, hcallback, _, hcomplete⟩ :=
    endToEnd lawful_listLru (fun _ => standInKeyPair_opens) r hsend
  refine ⟨s, r, origin, hnodup, ?_, hcallback⟩
  refine hcomplete ?_ ?_ () sampleQueued ?_ rfl ?_
  · rw [Listening.idle_iff, haccepted]
    exact ⟨List.forall_mem_singleton.mpr rfl, hpending⟩
  · intro n stream hstream
    rw [hopened] at hstream
    have hzero : stream = 0 := by
      have hlt := (List.getElem?_eq_some_iff.mp hstream).1
      exact Nat.lt_one_iff.mp hlt
    subst hzero
    exact ⟨0, _, by rw [hstreams]; rfl, by rw [haccepted]; rfl, hbytes.symm⟩
  · rw [hqueued]
    exact List.mem_singleton_self _
  · rw [Sender.resultsOf, hresults]
    exact List.mem_singleton_self _

end ShardusNet.Transport
