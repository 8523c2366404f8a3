import ShardusNet.Lib.Runs
import ShardusNet.Transport.Cache
import ShardusNet.Transport.Connection
import ShardusNet.Wire.Outgoing
/-!
# The sender

Port of `ShardusNetSender` in `shardus_net/src/shardus_net_sender.rs` as a step relation: the two
channels, the sender task, the evictor task and one task for each send. A step of a task ends where
the task waits: at a channel, at a lock or at an operation on a socket. Tasks take their steps in
any order.

A send is known by the number of its completion channel, a connection by the order in which it was
made. A task holds the lock of its connection from its first operation to its last; the lock is free
again when `Connection::send` returns, before the result is sent. The task that a dropped connection
spawns to shut its stream down puts no bytes; `OpenSockets` adds it.
-/

namespace ShardusNet.Transport
open Wire ByteCodec

variable {L ε : Type*}

/-- A task that was spawned for a send. It has no stage while it waits for the lock. -/
structure Task (ε : Type*) where
  send : QueuedSend
  connection : ℕ
  stage : Option (Stage ε)

/-- The state of the sender: the channels, what the two loops have taken off them, the cache, the
    connections that were made and who holds their locks, the tasks, the network, and the results
    that were sent. `spawned` lists the sends that got a task. -/
structure Sender (L ε : Type*) where
  sendChannel : List QueuedSend
  evictSocketChannel : List SocketAddr
  received : Option QueuedSend
  evicting : Option SocketAddr
  connections : ConnectionCache L
  made : ℕ
  connection : ℕ → Option Connection
  holder : ℕ → Option ℕ
  spawned : List QueuedSend
  tasks : ℕ → Option (Task ε)
  net : Net
  results : List (ℕ × SendResult ε)

/-- `Connection::send` has returned. -/
def Stage.returned : Stage ε → Bool
  | .done _ => true
  | _ => false

namespace Sender

/-- `ShardusNetSender::new`. -/
def new (connections : ConnectionCache L) : Sender L ε where
  sendChannel := []
  evictSocketChannel := []
  received := none
  evicting := none
  connections
  made := 0
  connection := fun _ => none
  holder := fun _ => none
  spawned := []
  tasks := fun _ => none
  net := .empty
  results := []

/-- The sends that were queued, in order. -/
def queued (s : Sender L ε) : List QueuedSend := s.spawned ++ s.received.toList ++ s.sendChannel

/-- A send is queued. -/
def send (s : Sender L ε) (q : QueuedSend) : Sender L ε :=
  { s with sendChannel := s.sendChannel ++ [q] }

/-- `evict_socket`. -/
def evictSocket (s : Sender L ε) (address : SocketAddr) : Sender L ε :=
  { s with evictSocketChannel := s.evictSocketChannel ++ [address] }

/-- The sender task takes a send off its channel. -/
def recvSend (s : Sender L ε) (q : QueuedSend) (rest : List QueuedSend) : Sender L ε :=
  { s with sendChannel := rest, received := some q }

/-- The sender task has the lock of the cache: it gets the connection and spawns a task. -/
def spawn (lru : LruCrate L) (s : Sender L ε) (q : QueuedSend) : Sender L ε :=
  let (connection, connections) := s.connections.getOrInsert lru q.address s.made
  { s with
    received := none
    connections
    made := if connection = s.made then s.made + 1 else s.made
    connection :=
      if connection = s.made then Function.update s.connection s.made (some (.new q.address))
      else s.connection
    spawned := s.spawned ++ [q]
    tasks := Function.update s.tasks q.completeTx (some ⟨q, connection, none⟩) }

/-- The evictor task takes an address off its channel. -/
def recvEvict (s : Sender L ε) (address : SocketAddr) (rest : List SocketAddr) : Sender L ε :=
  { s with evictSocketChannel := rest, evicting := some address }

/-- The evictor task has the lock of the cache: it removes the connection. -/
def remove (lru : LruCrate L) (s : Sender L ε) (address : SocketAddr) : Sender L ε :=
  { s with evicting := none, connections := (s.connections.remove lru address).2 }

/-- A task gets the lock of its connection. -/
def lock (s : Sender L ε) (c : ℕ) (task : Task ε) (conn : Connection) : Sender L ε :=
  { s with
    holder := Function.update s.holder task.connection (some c)
    tasks := Function.update s.tasks c (some { task with stage := some (.start conn.socket) }) }

/-- An operation of a task ends. -/
def io (s : Sender L ε) (c : ℕ) (task : Task ε) (stage : Stage ε) (conn : Connection) (io : Io ε) :
    Sender L ε :=
  let next := stage.advance conn.address task.send.data c io conn.socket s.net
  { s with
    connection := Function.update s.connection task.connection (some { conn with socket := next.2.1 })
    holder := if next.1.returned then Function.update s.holder task.connection none else s.holder
    tasks := Function.update s.tasks c (some { task with stage := some next.1 })
    net := next.2.2 }

/-- A task sends its result and ends. -/
def complete (s : Sender L ε) (c : ℕ) (result : SendResult ε) : Sender L ε :=
  { s with tasks := Function.update s.tasks c none, results := s.results ++ [(c, result)] }

end Sender

/-- What happens to a sender. -/
inductive Event (ε : Type*) where
  | send (q : QueuedSend)
  | evictSocket (address : SocketAddr)
  | recvSend
  | spawn
  | recvEvict
  | remove
  | lock (c : ℕ)
  | io (c : ℕ) (io : Io ε)
  | complete (c : ℕ)

/-- It is a step of one of the tasks, and not a call of the sender. -/
def Event.Internal : Event ε → Prop
  | .send _ => False
  | .evictSocket _ => False
  | _ => True

/-- One event. Every send has a completion channel of its own. -/
inductive Step (lru : LruCrate L) : Sender L ε → Event ε → Sender L ε → Prop
  | send {s q} (hnew : q.completeTx ∉ s.queued.map QueuedSend.completeTx) :
    Step lru s (.send q) (s.send q)
  | evictSocket {s address} : Step lru s (.evictSocket address) (s.evictSocket address)
  | recvSend {s q rest} (hchannel : s.sendChannel = q :: rest) (hfree : s.received = none) :
    Step lru s .recvSend (s.recvSend q rest)
  | spawn {s q} (hreceived : s.received = some q) : Step lru s .spawn (s.spawn lru q)
  | recvEvict {s address rest} (hchannel : s.evictSocketChannel = address :: rest)
    (hfree : s.evicting = none) : Step lru s .recvEvict (s.recvEvict address rest)
  | remove {s address} (hevicting : s.evicting = some address) :
    Step lru s .remove (s.remove lru address)
  | lock {s c task conn} (htask : s.tasks c = some task) (hwaiting : task.stage = none)
    (hconn : s.connection task.connection = some conn) (hfree : s.holder task.connection = none) :
    Step lru s (.lock c) (s.lock c task conn)
  | io {s c task stage conn io} (htask : s.tasks c = some task) (hstage : task.stage = some stage)
    (hrunning : stage.returned = false) (hconn : s.connection task.connection = some conn)
    (hcut : Io.CutsShort io task.send.data) :
    Step lru s (.io c io) (s.io c task stage conn io)
  | complete {s c task result} (htask : s.tasks c = some task)
    (hdone : task.stage = some (.done result)) : Step lru s (.complete c) (s.complete c result)

end ShardusNet.Transport
