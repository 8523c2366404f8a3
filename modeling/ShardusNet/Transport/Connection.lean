import ShardusNet.Lib.Framing
import ShardusNet.Wire.Listener
/-!
# Connections

Port of `Connection` in `shardus_net/src/shardus_net_sender.rs`, over the streams it writes to.

`Net` is what the sender has done to the network: the address of each stream that was opened, and
every write in order, with the number of the send that made it. A stream is its number in the first
list. How an operation ends is up to the environment (`Io`): a write that fails has put a proper
prefix of its frame.

`Connection.send` is the function of the source. A send that runs beside others is a `Stage`, which
moves at each operation (`Stage.advance`); `send_eq_advance` says that both do the same.
-/

namespace ShardusNet.Transport
open Wire ByteCodec Framing

/-- `SenderError`. -/
inductive SenderError (ε : Type*) where
  | ConnectionFailedError (error : ε) (address : SocketAddr)
  | SendFailedError (error : ε) (address : SocketAddr)
  deriving DecidableEq

/-- `SendResult`. -/
abbrev SendResult (ε : Type*) := Except (SenderError ε) Unit

/-- How an operation fails: its `io::Error` and, for a write, how many bytes of the frame it put. -/
structure Fault (ε : Type*) where
  error : ε
  put : ℕ

/-- How an operation on a socket ends. -/
abbrev Io (ε : Type*) := Except (Fault ε) Unit

/-- A write that failed put a proper prefix of the frame. -/
def Io.CutsShort {ε : Type*} (io : Io ε) (data : Bytes) : Prop :=
  ∀ fault, io = .error fault → fault.put < (frame data).length

/-- A write on a stream: the send that made it, the data of its frame and how many bytes were
    put. -/
structure Write where
  stream : ℕ
  writer : ℕ
  data : Bytes
  put : ℕ
  deriving DecidableEq

namespace Write

/-- The bytes it put. -/
def bytes (w : Write) : Bytes := (frame w.data).take w.put

/-- It put the whole frame. -/
def Whole (w : Write) : Prop := w.put = (frame w.data).length

/-- It can be decided. -/
instance (w : Write) : Decidable w.Whole := inferInstanceAs (Decidable (_ = _))

end Write

/-- The streams that were opened, and what was written. -/
structure Net where
  opened : List SocketAddr
  written : List Write

namespace Net

/-- No streams. -/
def empty : Net := ⟨[], []⟩

/-- A stream more. -/
def connect (net : Net) (address : SocketAddr) : Net :=
  { net with opened := net.opened ++ [address] }

/-- A write more. -/
def write (net : Net) (w : Write) : Net := { net with written := net.written ++ [w] }

/-- The writes on a stream. -/
def writesOn (net : Net) (stream : ℕ) : List Write := net.written.filter (·.stream = stream)

/-- The writes of a send. -/
def writesOf (net : Net) (writer : ℕ) : List Write := net.written.filter (·.writer = writer)

/-- The bytes on a stream. -/
def bytesOn (net : Net) (stream : ℕ) : Bytes := (net.writesOn stream).flatMap Write.bytes

/-- A stream more is the last that was opened. -/
@[simp] lemma connect_opened (net : Net) (address) :
    (net.connect address).opened = net.opened ++ [address] := rfl

/-- A write more is the last. -/
@[simp] lemma write_written (net : Net) (w) : (net.write w).written = net.written ++ [w] := rfl

/-- A write more is on its own stream only. -/
lemma write_writesOn (net : Net) (w : Write) (stream) :
    (net.write w).writesOn stream = net.writesOn stream ++ if w.stream = stream then [w] else [] := by
  simp only [writesOn, write_written, List.filter_append, List.filter_singleton, Bool.cond_decide]

/-- A write more is of its own send only. -/
lemma write_writesOf (net : Net) (w : Write) (writer) :
    (net.write w).writesOf writer = net.writesOf writer ++ if w.writer = writer then [w] else [] := by
  simp only [writesOf, write_written, List.filter_append, List.filter_singleton, Bool.cond_decide]

end Net

section
variable {ε : Type*}

/-- `connect_and_set_socket_if_none`. -/
def connectAndSetSocketIfNone (net : Net) (socketOp : Option ℕ) (address : SocketAddr) (io : Io ε) :
    Except (SenderError ε) ℕ × Option ℕ × Net :=
  match socketOp with
  | some socket => (.ok socket, socketOp, net)
  | none =>
    match io with
    | .ok () =>
      let connectionStream := net.opened.length
      (.ok connectionStream, some connectionStream, net.connect address)
    | .error fault => (.error (.ConnectionFailedError fault.error address), none, net)

/-- How many bytes a write puts. -/
def bytesPut (io : Io ε) (data : Bytes) : ℕ :=
  match io with
  | .ok () => (frame data).length
  | .error fault => fault.put

/-- A write puts no more than its frame. -/
lemma bytesPut_le {io : Io ε} {data} (hcut : Io.CutsShort io data) :
    bytesPut io data ≤ (frame data).length := by
  cases io with
  | ok => exact Nat.le_refl _
  | error fault => exact Nat.le_of_lt (hcut fault rfl)

/-- `write_data_to_stream`: the length of the data as a `u32`, then the data. -/
def writeDataToStream (net : Net) (socket : ℕ) (data : Bytes) (writer : ℕ) (io : Io ε) :
    Except ε Unit × Net :=
  (io.mapError Fault.error, net.write ⟨socket, writer, data, bytesPut io data⟩)

/-- `Connection`, without its lock. -/
structure Connection where
  address : SocketAddr
  socket : Option ℕ

/-- `Connection::new`. -/
def Connection.new (address : SocketAddr) : Connection := ⟨address, none⟩

/-- What the up to four operations of one send meet. -/
structure Attempts (ε : Type*) where
  connect : Io ε
  write : Io ε
  reconnect : Io ε
  rewrite : Io ε

/-- `Connection::send`. -/
def Connection.send (c : Connection) (net : Net) (data : Bytes) (writer : ℕ) (ios : Attempts ε) :
    SendResult ε × Connection × Net :=
  match connectAndSetSocketIfNone net c.socket c.address ios.connect with
  | (.error e, socket, net) => (.error e, { c with socket }, net)
  | (.ok stream, socket, net) =>
    match writeDataToStream net stream data writer ios.write with
    | (.ok (), net) => (.ok (), { c with socket }, net)
    | (.error _, net) =>
      match connectAndSetSocketIfNone net none c.address ios.reconnect with
      | (.error e, socket, net) => (.error e, { c with socket }, net)
      | (.ok stream, socket, net) =>
        match writeDataToStream net stream data writer ios.rewrite with
        | (.error e, net) => (.error (.SendFailedError e c.address), { c with socket }, net)
        | (.ok (), net) => (.ok (), { c with socket }, net)

/-! ## One operation at a time -/

/-- Where a send that holds the lock is: at one of its operations, or returned. -/
inductive Stage (ε : Type*) where
  | connect
  | write (socket : ℕ)
  | reconnect
  | rewrite (socket : ℕ)
  | done (result : SendResult ε)

/-- Where a send is when it has the lock. -/
def Stage.start : Option ℕ → Stage ε
  | none => .connect
  | some socket => .write socket

/-- One operation of a send, with the slot of its connection. -/
def Stage.advance (address : SocketAddr) (data : Bytes) (writer : ℕ) (io : Io ε) :
    Stage ε → Option ℕ → Net → Stage ε × Option ℕ × Net
  | .connect, _, net =>
    match connectAndSetSocketIfNone net none address io with
    | (.error e, socket, net) => (.done (.error e), socket, net)
    | (.ok stream, socket, net) => (.write stream, socket, net)
  | .write stream, socket, net =>
    match writeDataToStream net stream data writer io with
    | (.ok (), net) => (.done (.ok ()), socket, net)
    | (.error _, net) => (.reconnect, none, net)
  | .reconnect, _, net =>
    match connectAndSetSocketIfNone net none address io with
    | (.error e, socket, net) => (.done (.error e), socket, net)
    | (.ok stream, socket, net) => (.rewrite stream, socket, net)
  | .rewrite stream, socket, net =>
    match writeDataToStream net stream data writer io with
    | (.error e, net) => (.done (.error (.SendFailedError e address)), socket, net)
    | (.ok (), net) => (.done (.ok ()), socket, net)
  | .done result, socket, net => (.done result, socket, net)

/-- What the operation of a stage meets. -/
def Stage.io (ios : Attempts ε) : Stage ε → Io ε
  | .connect => ios.connect
  | .write _ => ios.write
  | .reconnect => ios.reconnect
  | .rewrite _ => ios.rewrite
  | .done _ => .ok ()

/-- The next operation of a send that runs alone. -/
def Stage.next (address : SocketAddr) (data : Bytes) (writer : ℕ) (ios : Attempts ε) :
    Stage ε × Option ℕ × Net → Stage ε × Option ℕ × Net
  | (stage, socket, net) => stage.advance address data writer (stage.io ios) socket net

/-- One operation at a time, a send returns after at most four what `Connection::send` returns. -/
theorem send_eq_advance (c : Connection) (net : Net) (data : Bytes) (writer : ℕ) (ios : Attempts ε) :
    (Stage.next c.address data writer ios)^[4] (.start c.socket, c.socket, net) =
      (.done (c.send net data writer ios).1, (c.send net data writer ios).2.1.socket,
        (c.send net data writer ios).2.2) := by
  obtain ⟨address, socket⟩ := c
  obtain ⟨connect, write, reconnect, rewrite⟩ := ios
  cases socket with
  | some stream =>
    cases write with
    | ok => rfl
    | error =>
      cases reconnect with
      | error => rfl
      | ok => cases rewrite <;> rfl
  | none =>
    cases connect with
    | error => rfl
    | ok =>
      cases write with
      | ok => rfl
      | error =>
        cases reconnect with
        | error => rfl
        | ok => cases rewrite <;> rfl

end

end ShardusNet.Transport
