import ShardusNet.Wire.Listener
/-!
# Outgoing messages

Port of the first half of `shardus_net/src/shardus_net_sender.rs`: what `ShardusNetSender` puts on
its send channel. A queued send is an address, the bytes of a frame's body and the number of the
completion channel that gets its result.
-/

namespace ShardusNet.Wire
open ByteCodec

/-- An entry of the send channel. -/
structure QueuedSend where
  address : SocketAddr
  data : Bytes
  completeTx : ℕ
  deriving DecidableEq

section
variable (crates : Crates) (crypto : ShardusCrypto) (keyPair : KeyPair)

/-- The signed message of a send: `header` with the length of the data set, and the data. -/
def signedMessage (headerVersion : UInt8) (header : Header) (data : Bytes) : Exec Message := do
  let compressedData := header.compress crates data
  let header := header.setMessageLength (UInt32.ofNat compressedData.length)
  let serializedHeader ← expect .serializeHeader (headerSerializeFactory headerVersion header)
  let message := Message.newUnsigned headerVersion serializedHeader compressedData
  message.signWith crates crypto keyPair

/-- `ShardusNetSender::send`. -/
def send (address : SocketAddr) (data : String) (completeTx : ℕ) : QueuedSend :=
  ⟨address, utf8 data, completeTx⟩

/-- `ShardusNetSender::send_with_header`. -/
def sendWithHeader (address : SocketAddr) (headerVersion : UInt8) (header : Header) (data : Bytes)
    (completeTx : ℕ) : Exec QueuedSend := do
  let message ← signedMessage crates crypto keyPair headerVersion header data
  return ⟨address, wrapSerializedMessage message.serialize, completeTx⟩

/-- `ShardusNetSender::multi_send_with_header`. -/
def multiSendWithHeader (addresses : List SocketAddr) (headerVersion : UInt8) (header : Header)
    (data : Bytes) (senders : List ℕ) : Exec (List QueuedSend) := do
  let message ← signedMessage crates crypto keyPair headerVersion header data
  let serializedMessage := wrapSerializedMessage message.serialize
  return (addresses.zip senders).map fun (address, sender) => ⟨address, serializedMessage, sender⟩

/-- The message of a send with a V1 header. -/
lemma signedMessage_eq_ok {h : HeaderV1} {data m} :
    signedMessage crates crypto keyPair 1 (.V1 h) data = .ok m ↔
      ∃ digest,
        crates.genericHash crypto.hashKey
          (Message.newUnsigned 1 { h with messageLength := UInt32.ofNat data.length }.serialize
            data).serializeUnsigned = some digest ∧
        m = { headerVersion := 1
              header := { h with messageLength := UInt32.ofNat data.length }.serialize
              data := data
              sign := ⟨keyPair.publicKey.bytes, crates.sign digest keyPair.secretKey⟩ } := by
  have e : signedMessage crates crypto keyPair 1 (.V1 h) data =
      (Message.newUnsigned 1 { h with messageLength := UInt32.ofNat data.length }.serialize
        data).signWith crates crypto keyPair := rfl
  rw [e, Message.signWith_eq_ok]
  rfl

end

end ShardusNet.Wire
