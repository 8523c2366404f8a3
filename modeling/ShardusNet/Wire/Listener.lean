import ShardusNet.Lib.Framing
import ShardusNet.Wire.Header
import ShardusNet.Wire.Message
/-!
# The receive loop

Port of `shardus_net/src/shardus_net_listener.rs`: what `receive` does with the bytes of one
accepted connection. The stream is the bytes the peer sends before the connection ends; reading past
them is the read error the loop ends on.

* `handleFrame`: the body of the loop for one frame, up to the delivery.
* `receive`: the loop. It delivers items and ends by `Ok`, by a `ListenerError` or by a panic.
* `receive_eq_run`: the loop is `run` over the whole frames of the stream, so that its properties
  are inductions over the list of frames.
* `Handled`, `handleParsed_eq_some`, `handleParsed_eq_none`, `handleParsed_panics`: what one message
  can do.
-/

namespace ShardusNet.Wire
open ByteCodec Framing

/-- `IpAddr`. -/
inductive IpAddr where
  | V4 (octets : BitVec 32)
  | V6 (octets : BitVec 128)
  deriving DecidableEq

/-- `SocketAddr`. -/
structure SocketAddr where
  ip : IpAddr
  port : UInt16
  deriving DecidableEq

/-- The address used in examples. -/
def sampleAddr : SocketAddr := ⟨.V4 0x7f000001#32, 44444⟩

/-- `RequestMetadata`. -/
structure RequestMetadata where
  version : UInt8
  headerJsonString : String
  signJsonString : String
  deriving DecidableEq

/-- What the loop sends to `received_msg_tx`. -/
structure Delivery where
  msg : String
  remoteAddr : SocketAddr
  requestMetadata : Option RequestMetadata
  deriving DecidableEq

/-- `ListenerError`. -/
inductive ListenerError where
  | ParseDataAsUtf8Error
  | SendCompleteError
  | ReadStreamError
  deriving DecidableEq, Repr

/-- How the loop ends. -/
inductive Exit where
  | ok
  | error (e : ListenerError)
  | panicked (p : Panic)
  deriving DecidableEq, Repr

/-- What the loop did: its deliveries in order, and how it ended. -/
structure Received where
  delivered : List Delivery
  exit : Exit
  deriving DecidableEq

section
variable (crates : Crates) (crypto : ShardusCrypto) (remoteAddr : SocketAddr)

/-- The body of the loop for a message that parsed: the three checks, the header, the delivery. -/
def handleParsed (message : Message) : Except Exit (Option Delivery) :=
  if message.header.length > HEADER_SIZE_LIMIT_IN_BYTES then .ok none
  else
    match message.verify crates crypto with
    | .error p => .error (.panicked p)
    | .ok false => .ok none
    | .ok true =>
      match headerDeserializeFactory message.headerVersion message.header with
      | none => .error (.panicked .deserializeHeader)
      | some (header, _) =>
        if !header.validate message.data then .ok none
        else
          let requestMetadata : RequestMetadata :=
            { version := message.headerVersion
              headerJsonString := header.toJsonString
              signJsonString := message.sign.toJsonString }
          match header.decompress crates message.data with
          | none => .error (.panicked .decompressMessage)
          | some decompressedDataBytes =>
            match fromUtf8 decompressedDataBytes with
            | none => .error (.error .ParseDataAsUtf8Error)
            | some msg => .ok (some ⟨msg, remoteAddr, some requestMetadata⟩)

/-- The body of the loop for a frame whose first byte says that a header is present. -/
def handleMessage (msgBytes : Bytes) : Except Exit (Option Delivery) :=
  match Message.deserialize msgBytes with
  | none => .error (.panicked .deserializeMessage)
  | some (message, _) => handleParsed crates crypto remoteAddr message

/-- The body of the loop for one frame: `none` is a `continue`, an item is sent on. -/
def handleFrame (buffer : Bytes) : Except Exit (Option Delivery) :=
  if buffer.head? = some 1 then handleMessage crates crypto remoteAddr buffer.tail
  else
    match fromUtf8 buffer with
    | none => .error (.error .ParseDataAsUtf8Error)
    | some msg => .ok (some ⟨msg, remoteAddr, none⟩)

/-- What the loop did after an item was sent. -/
def Received.cons (item : Delivery) (r : Received) : Received := { r with delivered := item :: r.delivered }

/-- `ShardusNetListener::receive` after `sent` items. `rxDropped n` says whether the receiving side
    is gone when item number `n` is sent. -/
def receiveFrom (rxDropped : ℕ → Bool) (sent : ℕ) (stream : Bytes) : Received :=
  match _h : readBe 4 stream with
  | none => ⟨[], .ok⟩
  | some (msgLen, body) =>
    match _h' : readExact msgLen body with
    | none => ⟨[], .error .ReadStreamError⟩
    | some (buffer, rest) =>
      match handleFrame crates crypto remoteAddr buffer with
      | .error e => ⟨[], e⟩
      | .ok none => receiveFrom rxDropped sent rest
      | .ok (some item) =>
        if rxDropped sent then ⟨[], .error .SendCompleteError⟩
        else (receiveFrom rxDropped (sent + 1) rest).cons item
termination_by stream.length
decreasing_by
  all_goals
    apply length_of_next (b := buffer)
    simp only [next, Option.bind_eq_bind, Option.bind_eq_some_iff]
    exact ⟨_, ‹_›, ‹_›⟩

/-- `ShardusNetListener::receive`. -/
def receive (rxDropped : ℕ → Bool) (stream : Bytes) : Received :=
  receiveFrom crates crypto remoteAddr rxDropped 0 stream

/-- The receiver of `listen`, whose task owns it and loops for the life of the process. -/
def receiverHeld : ℕ → Bool := fun _ => false

/-! ## What one frame can do -/

/-- A frame behind the header marker is a message. -/
@[simp] lemma handleFrame_wrap (msgBytes) :
    handleFrame crates crypto remoteAddr (wrapSerializedMessage msgBytes) =
      handleMessage crates crypto remoteAddr msgBytes := rfl

/-- What the loop makes of a message that parsed, by the check at which it leaves the body. -/
inductive Handled (m : Message) : Except Exit (Option Delivery) → Prop
  | oversized :
    m.header.length > HEADER_SIZE_LIMIT_IN_BYTES → Handled m (.ok none)
  | verifyPanics {p} :
    m.header.length ≤ HEADER_SIZE_LIMIT_IN_BYTES →
    m.verify crates crypto = .error p →
    Handled m (.error (.panicked p))
  | unverified :
    m.header.length ≤ HEADER_SIZE_LIMIT_IN_BYTES →
    m.verify crates crypto = .ok false →
    Handled m (.ok none)
  | headerPanics :
    m.header.length ≤ HEADER_SIZE_LIMIT_IN_BYTES →
    m.verify crates crypto = .ok true →
    headerDeserializeFactory m.headerVersion m.header = none →
    Handled m (.error (.panicked .deserializeHeader))
  | invalid {header rest} :
    m.header.length ≤ HEADER_SIZE_LIMIT_IN_BYTES →
    m.verify crates crypto = .ok true →
    headerDeserializeFactory m.headerVersion m.header = some (header, rest) →
    header.validate m.data = false →
    Handled m (.ok none)
  | noText {header rest} :
    m.header.length ≤ HEADER_SIZE_LIMIT_IN_BYTES →
    m.verify crates crypto = .ok true →
    headerDeserializeFactory m.headerVersion m.header = some (header, rest) →
    header.validate m.data = true →
    fromUtf8 m.data = none →
    Handled m (.error (.error .ParseDataAsUtf8Error))
  | delivered {header rest msg} :
    m.header.length ≤ HEADER_SIZE_LIMIT_IN_BYTES →
    m.verify crates crypto = .ok true →
    headerDeserializeFactory m.headerVersion m.header = some (header, rest) →
    header.validate m.data = true →
    fromUtf8 m.data = some msg →
    Handled m
      (.ok (some ⟨msg, remoteAddr, some ⟨m.headerVersion, header.toJsonString, m.sign.toJsonString⟩⟩))

/-- The body of the loop leaves at one of its checks or delivers. -/
lemma handled (m) : Handled crates crypto remoteAddr m (handleParsed crates crypto remoteAddr m) := by
  unfold handleParsed
  split
  case isTrue hl => exact .oversized hl
  case isFalse hl =>
    have hl : m.header.length ≤ HEADER_SIZE_LIMIT_IN_BYTES := Nat.le_of_not_lt hl
    cases hv : m.verify crates crypto with
    | error p => exact .verifyPanics hl hv
    | ok b =>
      cases b with
      | false => exact .unverified hl hv
      | true =>
        cases hf : headerDeserializeFactory m.headerVersion m.header with
        | none => exact .headerPanics hl hv hf
        | some hr =>
          obtain ⟨header, rest⟩ := hr
          cases hval : header.validate m.data with
          | false =>
            simp only [hval]
            exact .invalid hl hv hf hval
          | true =>
            simp only [hval, Header.decompress_eq]
            cases ht : fromUtf8 m.data with
            | none => exact .noText hl hv hf hval ht
            | some msg => exact .delivered hl hv hf hval ht

/-- A message is delivered exactly when it passes the three checks, its header parses and its data
    is text. -/
lemma handleParsed_eq_some {m item} :
    handleParsed crates crypto remoteAddr m = .ok (some item) ↔
      m.header.length ≤ HEADER_SIZE_LIMIT_IN_BYTES ∧ m.verify crates crypto = .ok true ∧
        ∃ header rest msg, headerDeserializeFactory m.headerVersion m.header = some (header, rest) ∧
          header.validate m.data = true ∧ fromUtf8 m.data = some msg ∧
          item = ⟨msg, remoteAddr, some ⟨m.headerVersion, header.toJsonString, m.sign.toJsonString⟩⟩ := by
  have h := handled crates crypto remoteAddr m
  generalize handleParsed crates crypto remoteAddr m = result at h ⊢
  cases h with
  | oversized hl => simp [Nat.not_le_of_gt hl]
  | verifyPanics _ hv => simp [hv]
  | unverified _ hv => simp [hv]
  | headerPanics _ _ hf => simp [hf]
  | invalid _ _ hf hval => simp [hf, hval]
  | noText _ _ _ _ ht => simp [ht]
  | delivered hl hv hf hval ht =>
    simp [hl, hv, hf, hval, ht]
    exact eq_comm

/-- A message is dropped exactly when one of the three checks turns it down. -/
lemma handleParsed_eq_none {m} :
    handleParsed crates crypto remoteAddr m = .ok none ↔
      m.header.length > HEADER_SIZE_LIMIT_IN_BYTES ∨ m.verify crates crypto = .ok false ∨
        m.verify crates crypto = .ok true ∧
          ∃ header rest, headerDeserializeFactory m.headerVersion m.header = some (header, rest) ∧
            header.validate m.data = false := by
  have h := handled crates crypto remoteAddr m
  generalize handleParsed crates crypto remoteAddr m = result at h ⊢
  cases h with
  | oversized hl => simp [hl]
  | verifyPanics hl hv => simp [Nat.not_lt_of_le hl, hv]
  | unverified _ hv => simp [hv]
  | headerPanics hl hv hf => simp [Nat.not_lt_of_le hl, hv, hf]
  | invalid _ hv hf hval => simp [hv, hf, hval]
  | noText hl hv hf hval => simp [Nat.not_lt_of_le hl, hv, hf, hval]
  | delivered hl hv hf hval => simp [Nat.not_lt_of_le hl, hv, hf, hval]

/-- A message that parsed makes the loop panic exactly when it is within the size limit and either
    verification panics, or it verifies and its header does not parse. -/
lemma handleParsed_panics {m} :
    (∃ p, handleParsed crates crypto remoteAddr m = .error (.panicked p)) ↔
      m.header.length ≤ HEADER_SIZE_LIMIT_IN_BYTES ∧
        ((∃ p, m.verify crates crypto = .error p) ∨
          m.verify crates crypto = .ok true ∧
            headerDeserializeFactory m.headerVersion m.header = none) := by
  have h := handled crates crypto remoteAddr m
  generalize handleParsed crates crypto remoteAddr m = result at h ⊢
  cases h with
  | oversized hl => simp [Nat.not_le_of_gt hl]
  | verifyPanics hl hv => simp [hl, hv]
  | unverified _ hv => simp [hv]
  | headerPanics hl hv hf => simp [hl, hv, hf]
  | invalid _ hv hf => simp [hv, hf]
  | noText _ hv hf => simp [hv, hf]
  | delivered _ hv hf => simp [hv, hf]

/-- A message makes the loop return an error exactly when it passes every check and its data is not
    text. -/
lemma handleParsed_error {m} :
    (∃ e, handleParsed crates crypto remoteAddr m = .error (.error e)) ↔
      m.header.length ≤ HEADER_SIZE_LIMIT_IN_BYTES ∧ m.verify crates crypto = .ok true ∧
        ∃ header rest, headerDeserializeFactory m.headerVersion m.header = some (header, rest) ∧
          header.validate m.data = true ∧ fromUtf8 m.data = none := by
  have h := handled crates crypto remoteAddr m
  generalize handleParsed crates crypto remoteAddr m = result at h ⊢
  cases h with
  | oversized hl => simp [Nat.not_le_of_gt hl]
  | verifyPanics _ hv => simp [hv]
  | unverified _ hv => simp [hv]
  | headerPanics _ _ hf => simp [hf]
  | invalid _ _ hf hval => simp [hf, hval]
  | noText hl hv hf hval ht => simp [hl, hv, hf, hval, ht]
  | delivered _ _ _ _ ht => simp [ht]

/-- No message ends the loop by `Ok`. -/
lemma handleParsed_ne_ok {m} : handleParsed crates crypto remoteAddr m ≠ .error .ok := by
  have h := handled crates crypto remoteAddr m
  generalize handleParsed crates crypto remoteAddr m = result at h ⊢
  cases h <;> simp

/-! ## The loop as a fold over frames -/

/-- How the loop ends on a stream with no whole frame in front. -/
def endOf (stream : Bytes) : Exit := if stream.length < 4 then .ok else .error .ReadStreamError

/-- The loop ends at the end of a stream, by `Ok` or by a read error. -/
lemma endOf_ne_panicked (stream p) : endOf stream ≠ .panicked p := by
  unfold endOf
  split <;> simp

/-- The bytes after the last whole frame. -/
def leftover (stream : Bytes) : Bytes :=
  match _h : next stream with
  | none => stream
  | some (_, rest) => leftover rest
termination_by stream.length
decreasing_by exact length_of_next ‹_›

/-- The loop over the bodies of the whole frames, ending by `last` when they are used up. -/
def run (rxDropped : ℕ → Bool) (last : Exit) : ℕ → List Bytes → Received
  | _, [] => ⟨[], last⟩
  | sent, buffer :: bs =>
    match handleFrame crates crypto remoteAddr buffer with
    | .error e => ⟨[], e⟩
    | .ok none => run rxDropped last sent bs
    | .ok (some item) =>
      if rxDropped sent then ⟨[], .error .SendCompleteError⟩
      else (run rxDropped last (sent + 1) bs).cons item

/-- Nothing is left over where no whole frame was read. -/
lemma leftover_of_next_none {stream} (h : next stream = none) : leftover stream = stream := by
  rw [leftover]
  split
  case h_1 => rfl
  case h_2 h' => rw [h] at h'; cases h'

/-- What is left over after a whole frame is what the rest leaves. -/
lemma leftover_of_next_some {stream b rest} (h : next stream = some (b, rest)) :
    leftover stream = leftover rest := by
  rw [leftover]
  split
  case h_1 h' => rw [h] at h'; cases h'
  case h_2 h' => rw [h] at h'; cases h'; rfl

/-- The loop ends on a stream with no whole frame in front. -/
lemma receiveFrom_of_next_none {rxDropped sent stream} (h : next stream = none) :
    receiveFrom crates crypto remoteAddr rxDropped sent stream = ⟨[], endOf stream⟩ := by
  rw [receiveFrom, endOf]
  split
  case h_1 h₁ => rw [if_pos (readBe_eq_none.mp h₁)]
  case h_2 n body h₁ =>
    have hl : ¬ stream.length < 4 := by rw [← readBe_eq_none, h₁]; simp
    rw [if_neg hl]
    split
    case h_1 => rfl
    case h_2 h₂ => simp [next, h₁, h₂] at h

/-- One turn of the loop. -/
lemma receiveFrom_of_next_some {rxDropped sent stream buffer rest}
    (h : next stream = some (buffer, rest)) :
    receiveFrom crates crypto remoteAddr rxDropped sent stream =
      match handleFrame crates crypto remoteAddr buffer with
      | .error e => ⟨[], e⟩
      | .ok none => receiveFrom crates crypto remoteAddr rxDropped sent rest
      | .ok (some item) =>
        if rxDropped sent then ⟨[], .error .SendCompleteError⟩
        else (receiveFrom crates crypto remoteAddr rxDropped (sent + 1) rest).cons item := by
  rw [receiveFrom]
  split
  case h_1 h₁ => simp [next, h₁] at h
  case h_2 n body h₁ =>
    split
    case h_1 h₂ => simp [next, h₁, h₂] at h
    case h_2 b r h₂ =>
      have e : some (b, r) = some (buffer, rest) := by rw [← h, next, h₁]; exact h₂.symm
      cases e
      rfl

/-- The loop is a fold over the whole frames of the stream. -/
lemma receiveFrom_eq_run (rxDropped sent stream) :
    receiveFrom crates crypto remoteAddr rxDropped sent stream =
      run crates crypto remoteAddr rxDropped (endOf (leftover stream)) sent (frames stream) := by
  induction stream using frames.induct generalizing sent with
  | case1 stream h =>
    rw [receiveFrom_of_next_none crates crypto remoteAddr h, frames_of_next_none h,
      leftover_of_next_none h]
    rfl
  | case2 stream b r h ih =>
    rw [receiveFrom_of_next_some crates crypto remoteAddr h, frames_of_next_some h,
      leftover_of_next_some h, run]
    simp only [ih]

/-- `receive` is `run` over the whole frames of the stream. -/
lemma receive_eq_run (rxDropped stream) :
    receive crates crypto remoteAddr rxDropped stream =
      run crates crypto remoteAddr rxDropped (endOf (leftover stream)) 0 (frames stream) :=
  receiveFrom_eq_run crates crypto remoteAddr rxDropped 0 stream

end

end ShardusNet.Wire
