import ShardusNet.Wire.Outgoing
/-!
# Delivery over one connection

What the receive loop delivers from the frames senders put on a connection: headerless texts, signed
messages, and messages that parse but fail one of the listener's checks (`Sent`). Each frame is
handled on its own (`Sent.handled`), so from any prefix of the stream the loop delivers the payloads
of the frames wholly in that prefix, in order and once each (`receive_delivers`).
-/

namespace ShardusNet.Wire
open ByteCodec Framing

section
variable (crates : Crates) (crypto : ShardusCrypto) (keyPair : KeyPair) (remoteAddr : SocketAddr)

/-- One of the listener's three checks turns the message down, without a panic on the way. -/
inductive TurnedDown (m : Message) : Prop where
  /-- The header is over the size limit. -/
  | headerTooLong : m.header.length > HEADER_SIZE_LIMIT_IN_BYTES → TurnedDown m
  /-- The signature does not verify under its owner, which is a public key. -/
  | badSignature : m.verify crates crypto = .ok false → TurnedDown m
  /-- The header parses, and its length is not the length of the data. -/
  | wrongLength {b h rest} : m.verify crates crypto = .ok b →
      headerDeserializeFactory m.headerVersion m.header = some (.V1 h, rest) →
      h.messageLength.toNat ≠ m.data.length → TurnedDown m

/-- The bodies of frames on a connection, each with the payload it carries, if any. -/
inductive Sent : Bytes → Option Delivery → Prop where
  /-- A headerless text. -/
  | headerless {s} : (utf8 s).head? ≠ some 1 → Sent (utf8 s) (some ⟨s, remoteAddr, none⟩)
  /-- What `send_with_header` builds from a V1 header and a text. -/
  | signed {h : HeaderV1} {d m} : h.serialize.length ≤ HEADER_SIZE_LIMIT_IN_BYTES →
      signedMessage crates crypto keyPair 1 (.V1 h) (utf8 d) = .ok m →
      Sent (wrapSerializedMessage m.serialize)
        (some ⟨d, remoteAddr, some
          { version := 1
            headerJsonString :=
              { h with messageLength := UInt32.ofNat (utf8 d).length }.toJsonString
            signJsonString := m.sign.toJsonString }⟩)
  /-- A message that parses and is turned down. -/
  | rejected {msgBytes m rest} : Message.deserialize msgBytes = some (m, rest) →
      TurnedDown crates crypto m → Sent (wrapSerializedMessage msgBytes) none

/-- A message that is turned down is skipped. -/
lemma TurnedDown.handled {m} (td : TurnedDown crates crypto m) :
    handleParsed crates crypto remoteAddr m = .ok none := by
  rw [handleParsed_eq_none]
  cases td with
  | headerTooLong hl => exact .inl hl
  | badSignature hv => exact .inr (.inl hv)
  | @wrongLength b h rest hv hf hne =>
    cases b with
    | false => exact .inr (.inl hv)
    | true =>
      refine .inr (.inr ⟨hv, .V1 h, rest, hf, ?_⟩)
      simpa [Header.validate, HeaderV1.validate] using Ne.symm hne

/-- A signed message is verified by a listener with the same hash key. -/
lemma verify_signedMessage {h : HeaderV1} {data m} (hk : keyPair.Opens crates)
    (hm : signedMessage crates crypto keyPair 1 (.V1 h) data = .ok m) :
    m.verify crates crypto = .ok true := by
  obtain ⟨digest, hd, rfl⟩ := (signedMessage_eq_ok crates crypto keyPair).mp hm
  rw [Message.verify_eq_ok]
  refine ⟨digest, keyPair.publicKey, hd, rfl, ?_⟩
  exact (decide_eq_true (hk digest)).symm

/-- A signed message that verifies, of a header within the size limit, is delivered. -/
lemma handleParsed_signedMessage {h : HeaderV1} {d m} (hv : m.verify crates crypto = .ok true)
    (hl : h.serialize.length ≤ HEADER_SIZE_LIMIT_IN_BYTES) (hd : (utf8 d).length < 2 ^ 32)
    (hm : signedMessage crates crypto keyPair 1 (.V1 h) (utf8 d) = .ok m) :
    handleParsed crates crypto remoteAddr m =
      .ok (some ⟨d, remoteAddr, some
        ⟨1, { h with messageLength := UInt32.ofNat (utf8 d).length }.toJsonString,
          m.sign.toJsonString⟩⟩) := by
  obtain ⟨digest, _, rfl⟩ := (signedMessage_eq_ok crates crypto keyPair).mp hm
  have hl' : { h with messageLength := UInt32.ofNat (utf8 d).length }.serialize.length ≤
      HEADER_SIZE_LIMIT_IN_BYTES := by
    rw [HeaderV1.length_serialize] at hl ⊢
    exact hl
  have hf : headerDeserializeFactory 1
      { h with messageLength := UInt32.ofNat (utf8 d).length }.serialize =
        some (.V1 { h with messageLength := UInt32.ofNat (utf8 d).length }, []) := by
    rw [headerDeserializeFactory_eq_some]
    exact ⟨rfl, HeaderV1.fits_of_length_le hl', (List.append_nil _).symm⟩
  rw [handleParsed_eq_some]
  refine ⟨hl', hv, _, [], d, hf, ?_, fromUtf8_utf8 d, rfl⟩
  simp [Header.validate, HeaderV1.validate]
  omega

/-- The length of the body that carries a message. -/
lemma length_wrap_serialize (m : Message) :
    (wrapSerializedMessage m.serialize).length =
      18 + m.header.length + m.data.length + m.sign.owner.length + m.sign.sig.length := by
  simp only [wrapSerializedMessage, Message.serialize, Message.serializeUnsigned, Sign.serialize,
    List.length_cons, List.length_append, length_le, length_sized]
  omega

/-- The fields of a message are shorter than the body it is sent in. -/
lemma fits_of_length_lt {m : Message} (h : (wrapSerializedMessage m.serialize).length < 2 ^ 32) :
    m.Fits := by
  rw [length_wrap_serialize] at h
  refine ⟨by omega, by omega, ⟨by omega, by omega⟩⟩

/-- A frame is handled as its kind says, whatever came before it. -/
lemma Sent.handled {body payload} (hk : keyPair.Opens crates) (hb : body.length < 2 ^ 32)
    (hs : Sent crates crypto keyPair remoteAddr body payload) :
    handleFrame crates crypto remoteAddr body = .ok payload := by
  cases hs with
  | headerless h0 => rw [handleFrame, if_neg h0, fromUtf8_utf8]
  | @signed h d m hl hm =>
    have hd : m.data = utf8 d := by
      obtain ⟨digest, _, rfl⟩ := (signedMessage_eq_ok crates crypto keyPair).mp hm
      rfl
    have hlt : (utf8 d).length < 2 ^ 32 := by
      rw [← hd]
      exact (fits_of_length_lt hb).data
    have hp : Message.deserialize m.serialize = some (m, []) := by
      rw [Message.deserialize_eq_some]
      exact ⟨fits_of_length_lt hb, (List.append_nil _).symm⟩
    rw [handleFrame_wrap, handleMessage, hp]
    have hv := verify_signedMessage crates crypto keyPair hk hm
    exact handleParsed_signedMessage crates crypto keyPair remoteAddr hv hl hlt hm
  | rejected hp td =>
    rw [handleFrame_wrap, handleMessage, hp]
    exact td.handled crates crypto remoteAddr

/-- The loop over frames that are all handled delivers their payloads and goes on to the end. -/
lemma run_of_handled {fs : List (Bytes × Option Delivery)} {last sent}
    (hfs : ∀ f ∈ fs, handleFrame crates crypto remoteAddr f.1 = .ok f.2) :
    run crates crypto remoteAddr receiverHeld last sent (fs.map Prod.fst) =
      ⟨fs.filterMap Prod.snd, last⟩ := by
  induction fs generalizing sent with
  | nil => rfl
  | cons f fs ih =>
    obtain ⟨body, payload⟩ := f
    obtain ⟨hf, hrest⟩ := List.forall_mem_cons.mp hfs
    rw [List.map_cons, run, hf]
    cases payload with
    | none => exact ih hrest
    | some item =>
      have hsent : receiverHeld sent = false := rfl
      simp only [hsent, Bool.false_eq_true, if_false, ih hrest]
      rfl

/-- From any prefix of a stream of sent frames, the loop delivers the payloads of the frames wholly
    in the prefix, in order and once each, and does not panic. -/
theorem receive_delivers (hk : keyPair.Opens crates) (fs : List (Bytes × Option Delivery))
    (hfs : ∀ f ∈ fs, f.1.length < 2 ^ 32 ∧ Sent crates crypto keyPair remoteAddr f.1 f.2)
    (p : Bytes) (hp : p <+: (fs.map fun f => frame f.1).flatten) :
    (receive crates crypto remoteAddr receiverHeld p).delivered =
        (fs.take (wholeCount p.length (fs.map Prod.fst))).filterMap Prod.snd ∧
      ∀ q, (receive crates crypto remoteAddr receiverHeld p).exit ≠ .panicked q := by
  have hbs : ∀ b ∈ fs.map Prod.fst, b.length < 2 ^ 32 := by
    intro b hb
    obtain ⟨f, hf, rfl⟩ := List.mem_map.mp hb
    exact (hfs f hf).1
  have hframes : frames p = (fs.take (wholeCount p.length (fs.map Prod.fst))).map Prod.fst := by
    have e : (fs.map fun f => frame f.1) = (fs.map Prod.fst).map frame := by
      rw [List.map_map]
      rfl
    rw [e] at hp
    rw [List.map_take, ← frames_take hbs, ← List.prefix_iff_eq_take.mp hp]
  have hhandled : ∀ f ∈ fs.take (wholeCount p.length (fs.map Prod.fst)),
      handleFrame crates crypto remoteAddr f.1 = .ok f.2 := by
    intro f hf
    obtain ⟨hb, hs⟩ := hfs f (List.mem_of_mem_take hf)
    exact hs.handled crates crypto keyPair remoteAddr hk hb
  rw [receive_eq_run, hframes, run_of_handled crates crypto remoteAddr hhandled]
  exact ⟨rfl, fun q => endOf_ne_panicked _ q⟩

end

/-- The header used in examples. -/
def sampleHeader : HeaderV1 := ⟨.nil, 0, "node", "", "", .None⟩

/-- The message that carries "ok" under the header and the key pair used in examples. -/
def sampleMessage : Message where
  headerVersion := 1
  header := { sampleHeader with messageLength := UInt32.ofNat (utf8 "ok").length }.serialize
  data := utf8 "ok"
  sign := ⟨standInKeyPair.publicKey.bytes,
    (standIn fun _ _ => true).sign
      (le 32 (ofLe (Message.newUnsigned 1
        { sampleHeader with messageLength := UInt32.ofNat (utf8 "ok").length }.serialize
        (utf8 "ok")).serializeUnsigned)) standInKeyPair.secretKey⟩

/-- A message with an empty signature under a key of zeros. -/
def forgedMessage : Message := ⟨1, [], [], ⟨List.replicate 32 0, []⟩⟩

/-- A headerless text, a signed message and a forged one, with their payloads. -/
def sampleFrames : List (Bytes × Option Delivery) :=
  [(utf8 "hi", some ⟨"hi", sampleAddr, none⟩),
   (wrapSerializedMessage sampleMessage.serialize,
      some ⟨"ok", sampleAddr, some ⟨1,
        { sampleHeader with messageLength := UInt32.ofNat (utf8 "ok").length }.toJsonString,
        sampleMessage.sign.toJsonString⟩⟩),
   (wrapSerializedMessage forgedMessage.serialize, none)]

/-- The forged message is turned down. -/
lemma forgedMessage_turnedDown :
    TurnedDown (standIn fun _ _ => true) standInCrypto forgedMessage := by
  have h : (standIn fun _ _ => true).verify forgedMessage.sign.sig ⟨List.replicate 32 0, rfl⟩ =
      none := rfl
  refine .badSignature ?_
  rw [Message.verify_eq_ok]
  refine ⟨_, ⟨List.replicate 32 0, rfl⟩, rfl, rfl, ?_⟩
  rw [h]
  rfl

/-- The sample message is short. -/
lemma length_sampleMessage : (wrapSerializedMessage sampleMessage.serialize).length = 188 := by
  have hh : sampleMessage.header.length = 40 := by
    rw [sampleMessage, HeaderV1.length_serialize]
    rfl
  have hs : sampleMessage.sign.sig.length = 96 := by
    simp [sampleMessage, standIn, standInKeyPair]
  rw [length_wrap_serialize, hh, hs]
  rfl

/-- The frames used in examples are sent frames. -/
lemma sampleFrames_sent : ∀ f ∈ sampleFrames, f.1.length < 2 ^ 32 ∧
    Sent (standIn fun _ _ => true) standInCrypto standInKeyPair sampleAddr f.1 f.2 := by
  intro f hf
  simp only [sampleFrames, List.mem_cons, List.not_mem_nil, or_false] at hf
  rcases hf with rfl | rfl | rfl
  · exact ⟨by decide, .headerless (by decide)⟩
  · refine ⟨by rw [length_sampleMessage]; decide, .signed (h := sampleHeader) (d := "ok") (by decide) ?_⟩
    rw [signedMessage_eq_ok]
    exact ⟨_, rfl, rfl⟩
  · have hp : Message.deserialize forgedMessage.serialize = some (forgedMessage, []) := by
      rw [Message.deserialize_eq_some]
      exact ⟨⟨by decide, by decide, ⟨by decide, by decide⟩⟩, (List.append_nil _).symm⟩
    exact ⟨by decide, .rejected hp forgedMessage_turnedDown⟩

/-- The text and the signed message arrive, the forged message does not. -/
theorem receive_delivers_sampleFrames :
    (receive (standIn fun _ _ => true) standInCrypto sampleAddr receiverHeld
      (sampleFrames.map fun f => frame f.1).flatten).delivered =
        [⟨"hi", sampleAddr, none⟩,
         ⟨"ok", sampleAddr, some ⟨1,
            { sampleHeader with messageLength := UInt32.ofNat (utf8 "ok").length }.toJsonString,
            sampleMessage.sign.toJsonString⟩⟩] := by
  have h := (receive_delivers _ standInCrypto standInKeyPair sampleAddr standInKeyPair_opens sampleFrames
    sampleFrames_sent _ (List.prefix_refl _)).1
  have e : (sampleFrames.map fun f => frame f.1) = (sampleFrames.map Prod.fst).map frame := rfl
  rw [h, e, wholeCount_flatten]
  rfl

end ShardusNet.Wire
