import ShardusNet.Wire.Delivery
/-!
# Authenticity of deliveries

Every delivery with request metadata whose sign JSON names a key comes from a triple of version,
header bytes and data bytes that the holder of the key signed (`receive_authentic`).

The cryptography is assumed, not proved: signatures open only to what the holder of the key signed,
a holder signs only the hashes of messages below `2 ^ 32` bytes, and the keyed hash has no collision
among the messages signed and the messages received.
-/

namespace ShardusNet.Wire
open ByteCodec Framing

/-- A sign JSON whose owner is this key. -/
def NamesOwner (json : String) (pk : PublicKey) : Prop :=
  ∃ sig, json = (⟨pk.bytes, sig⟩ : Sign).toJsonString

/-- What stands before the first separator is determined by the whole. -/
lemma append_cons_left_inj {α} {x y r s : List α} {a : α} (hx : a ∉ x) (hy : a ∉ y)
    (e : x ++ a :: r = y ++ a :: s) : x = y := by
  induction x generalizing y with
  | nil =>
    cases y with
    | nil => rfl
    | cons b y =>
      cases e
      exact absurd (List.mem_cons_self) hy
  | cons c x ih =>
    cases y with
    | nil =>
      cases e
      exact absurd (List.mem_cons_self) hx
    | cons b y =>
      obtain ⟨rfl, e'⟩ := List.cons.inj e
      rw [ih (fun h => hx (List.mem_cons_of_mem _ h)) (fun h => hy (List.mem_cons_of_mem _ h)) e']

/-- Sign JSONs that are equal name the same owner. -/
lemma Sign.owner_of_toJsonString {s t : Sign} (e : s.toJsonString = t.toJsonString) :
    s.owner = t.owner := by
  have e := congrArg String.toList e
  simp only [toJsonString, String.toList_append, String.toList_ofList, List.append_assoc] at e
  have e := List.append_cancel_left e
  have hquote : ∀ b : Bytes, '"' ∉ Hex.encode b := by
    intro b h
    have := Hex.mem_encode h
    revert this
    decide
  exact Hex.encode_inj (append_cons_left_inj (hquote _) (hquote _) e)

section
variable (crates : Crates) (crypto : ShardusCrypto) (remoteAddr : SocketAddr)

/-- The keyed hash has no collision in a set of byte strings. -/
def CollisionFree (S : Set Bytes) : Prop :=
  ∀ x ∈ S, ∀ y ∈ S, ∀ digest, crates.genericHash crypto.hashKey x = some digest →
    crates.genericHash crypto.hashKey y = some digest → x = y

/-- The byte strings that are signed for a triple. -/
def signedBytes (signed : PublicKey → UInt8 → Bytes → Bytes → Prop) : Set Bytes :=
  {x | ∃ pk v header data, signed pk v header data ∧
    x = (Message.newUnsigned v header data).serializeUnsigned}

/-- The byte strings that are hashed for the messages of a stream. -/
def receivedBytes (stream : Bytes) : Set Bytes :=
  {x | ∃ body ∈ frames stream, ∃ m rest, Message.deserialize body.tail = some (m, rest) ∧
    x = m.serializeUnsigned}

/-- Every delivery comes from one of the frames. -/
lemma mem_delivered {rxDropped last sent bodies item}
    (h : item ∈ (run crates crypto remoteAddr rxDropped last sent bodies).delivered) :
    ∃ body ∈ bodies, handleFrame crates crypto remoteAddr body = .ok (some item) := by
  induction bodies generalizing sent with
  | nil => cases h
  | cons b bs ih =>
    rw [run] at h
    cases hb : handleFrame crates crypto remoteAddr b with
    | error e => simp [hb] at h
    | ok o =>
      rw [hb] at h
      cases o with
      | none =>
        obtain ⟨body, hmem, hbody⟩ := ih h
        exact ⟨body, List.mem_cons_of_mem _ hmem, hbody⟩
      | some item' =>
        simp only at h
        split at h
        case isTrue => cases h
        case isFalse =>
          rcases List.mem_cons.mp h with rfl | h
          · exact ⟨b, List.mem_cons_self, hb⟩
          · obtain ⟨body, hmem, hbody⟩ := ih h
            exact ⟨body, List.mem_cons_of_mem _ hmem, hbody⟩

/-- A delivery with request metadata comes from a message that passed the checks. -/
lemma handleFrame_metadata {body item md}
    (h : handleFrame crates crypto remoteAddr body = .ok (some item))
    (hmd : item.requestMetadata = some md) :
    ∃ m rest, Message.deserialize body.tail = some (m, rest) ∧ m.verify crates crypto = .ok true ∧
      ∃ header rest', headerDeserializeFactory m.headerVersion m.header = some (header, rest') ∧
        header.validate m.data = true ∧ fromUtf8 m.data = some item.msg ∧
        md = ⟨m.headerVersion, header.toJsonString, m.sign.toJsonString⟩ := by
  unfold handleFrame at h
  split at h
  case isFalse =>
    cases ht : fromUtf8 body <;> simp [ht] at h
    subst h
    cases hmd
  case isTrue =>
    unfold handleMessage at h
    split at h
    case h_1 => cases h
    case h_2 m rest hm =>
      rw [handleParsed_eq_some] at h
      obtain ⟨_, hv, header, rest', msg, hf, hval, ht, rfl⟩ := h
      cases hmd
      exact ⟨m, rest, hm, hv, header, rest', hf, hval, ht, rfl⟩

/-- Every delivery whose sign JSON names a key is computed from a triple that the holder of the key
    signed, and its header has the length of its data. -/
theorem receive_authentic (holderSigned : PublicKey → Bytes → Prop)
    (signed : PublicKey → UInt8 → Bytes → Bytes → Prop) (rxDropped : ℕ → Bool) (stream : Bytes)
    (hunforgeable : ∀ sig pk x, crates.verify sig pk = some x → holderSigned pk x)
    (hsign : ∀ pk x, holderSigned pk x → ∃ v header data, signed pk v header data ∧
      header.length < 2 ^ 32 ∧ data.length < 2 ^ 32 ∧
      crates.genericHash crypto.hashKey (Message.newUnsigned v header data).serializeUnsigned = some x)
    (hcoll : CollisionFree crates crypto (signedBytes signed ∪ receivedBytes stream))
    {item md pk} (hitem : item ∈ (receive crates crypto remoteAddr rxDropped stream).delivered)
    (hmd : item.requestMetadata = some md) (hpk : NamesOwner md.signJsonString pk) :
    ∃ v header data, signed pk v header data ∧ md.version = v ∧
      ∃ h rest, headerDeserializeFactory v header = some (.V1 h, rest) ∧
        md.headerJsonString = h.toJsonString ∧ fromUtf8 data = some item.msg ∧
        h.messageLength.toNat = data.length := by
  rw [receive_eq_run] at hitem
  obtain ⟨body, hbody, hframe⟩ := mem_delivered crates crypto remoteAddr hitem
  obtain ⟨m, rest, hm, hv, ⟨h⟩, rest', hf, hval, ht, rfl⟩ :=
    handleFrame_metadata crates crypto remoteAddr hframe hmd
  -- the opened signature is the hash of the received message, and the holder signed it
  obtain ⟨digest, pk', hdigest, howner, hopen⟩ := (Message.verify_eq_ok crates crypto).mp hv
  obtain ⟨sig, hsig⟩ := hpk
  have hpk' : pk' = pk := by
    have e : pk'.bytes = pk.bytes := by rw [← howner, Sign.owner_of_toJsonString hsig]
    cases pk'
    cases pk
    cases e
    rfl
  subst hpk'
  have hopen := of_decide_eq_true hopen.symm
  obtain ⟨v, header, data, hsigned, hheader, hdata, hx⟩ := hsign _ _ (hunforgeable _ _ _ hopen)
  -- equal hashes mean equal bytes, and the bytes determine the triple
  have hbytes : m.serializeUnsigned = (Message.newUnsigned v header data).serializeUnsigned :=
    hcoll _ (.inr ⟨body, hbody, m, rest, hm, rfl⟩) _ (.inl ⟨_, v, header, data, hsigned, rfl⟩)
      digest hdigest hx
  have hfits := (Message.deserialize_eq_some.mp hm).1
  obtain ⟨ev, eh, ed⟩ := Message.serializeUnsigned_inj (n := Message.newUnsigned v header data)
    hfits.header hfits.data hheader hdata hbytes
  have ev : m.headerVersion = v := ev
  have eh : m.header = header := eh
  have ed : m.data = data := ed
  subst ev eh ed
  refine ⟨_, _, _, hsigned, rfl, h, rest', hf, rfl, ht, ?_⟩
  exact (beq_iff_eq.mp hval).symm

end

/-! ## A genuine signature -/

/-- The stand-in crates where the one good signature is that of the sample message. -/
def genuineCrates : Crates :=
  standIn fun pk x => decide (pk = standInKeyPair.publicKey ∧
    x = le 32 (ofLe sampleMessage.serializeUnsigned))

/-- The stream of the sample message alone. -/
def sampleStream : Bytes := frame (wrapSerializedMessage sampleMessage.serialize)

/-- The delivery of the sample message. -/
def sampleDelivery : Delivery :=
  ⟨"ok", sampleAddr, some ⟨1,
    { sampleHeader with messageLength := UInt32.ofNat (utf8 "ok").length }.toJsonString,
    sampleMessage.sign.toJsonString⟩⟩

/-- The stream has the one frame. -/
lemma frames_sampleStream : frames sampleStream = [wrapSerializedMessage sampleMessage.serialize] := by
  have hlt : (wrapSerializedMessage sampleMessage.serialize).length < 2 ^ 32 := by
    rw [length_sampleMessage]
    decide
  have h := frames_frame_append (s := []) hlt
  rw [List.append_nil, frames_of_next_none (s := []) rfl] at h
  exact h

/-- The sample message is read back from its frame. -/
lemma deserialize_sampleMessage :
    Message.deserialize (wrapSerializedMessage sampleMessage.serialize).tail =
      some (sampleMessage, []) := by
  have hlt : (wrapSerializedMessage sampleMessage.serialize).length < 2 ^ 32 := by
    rw [length_sampleMessage]
    decide
  have htail : (wrapSerializedMessage sampleMessage.serialize).tail =
      sampleMessage.serialize ++ [] := by rw [wrapSerializedMessage, List.append_nil, List.tail_cons]
  exact Message.deserialize_eq_some.mpr ⟨fits_of_length_lt hlt, htail⟩

/-- The genuine signature verifies. -/
lemma verify_sampleMessage : sampleMessage.verify genuineCrates standInCrypto = .ok true := by
  rw [Message.verify_eq_ok]
  refine ⟨le 32 (ofLe sampleMessage.serializeUnsigned), standInKeyPair.publicKey, rfl, rfl, ?_⟩
  have h64 : (List.replicate 64 (7 : UInt8)).length = 64 := rfl
  have hsig : sampleMessage.sign.sig =
      List.replicate 64 7 ++ le 32 (ofLe sampleMessage.serializeUnsigned) := rfl
  have htake : sampleMessage.sign.sig.take 64 = List.replicate 64 7 := by
    rw [hsig, List.take_left' h64]
  have hdrop : sampleMessage.sign.sig.drop 64 = le 32 (ofLe sampleMessage.serializeUnsigned) := by
    rw [hsig, List.drop_left' h64]
  symm
  apply decide_eq_true
  simp only [genuineCrates, standIn, htake, hdrop]
  rw [if_pos]
  exact ⟨rfl, by simp⟩

/-- The sample message is delivered. -/
lemma receive_sampleStream :
    (receive genuineCrates standInCrypto sampleAddr receiverHeld sampleStream).delivered =
      [sampleDelivery] := by
  have hm : signedMessage genuineCrates standInCrypto standInKeyPair 1 (.V1 sampleHeader) (utf8 "ok") =
      .ok sampleMessage := by
    rw [signedMessage_eq_ok]
    exact ⟨_, rfl, rfl⟩
  have h : handleFrame genuineCrates standInCrypto sampleAddr
      (wrapSerializedMessage sampleMessage.serialize) = .ok (some sampleDelivery) := by
    rw [handleFrame_wrap, handleMessage, show Message.deserialize sampleMessage.serialize =
      some (sampleMessage, []) from deserialize_sampleMessage]
    exact handleParsed_signedMessage _ _ standInKeyPair sampleAddr verify_sampleMessage (by decide)
      (by decide) hm
  rw [receive_eq_run, frames_sampleStream]
  simp [run, h, receiverHeld, Received.cons]

/-- The delivery of the sample message comes from the triple its sender signed. -/
theorem receive_authentic_sampleStream :
    ∃ v header data, (v = 1 ∧ header = sampleMessage.header ∧ data = sampleMessage.data) ∧ 1 = v ∧
      ∃ h rest, headerDeserializeFactory v header = some (.V1 h, rest) ∧
        { sampleHeader with messageLength := UInt32.ofNat (utf8 "ok").length }.toJsonString =
          h.toJsonString ∧
        fromUtf8 data = some "ok" ∧ h.messageLength.toNat = data.length := by
  have hitem : sampleDelivery ∈
      (receive genuineCrates standInCrypto sampleAddr receiverHeld sampleStream).delivered := by
    rw [receive_sampleStream]
    exact List.mem_singleton_self _
  have hnames : NamesOwner sampleMessage.sign.toJsonString standInKeyPair.publicKey := ⟨_, rfl⟩
  refine receive_authentic genuineCrates standInCrypto sampleAddr
    (fun pk x => pk = standInKeyPair.publicKey ∧ x = le 32 (ofLe sampleMessage.serializeUnsigned))
    (fun _ v header data => v = 1 ∧ header = sampleMessage.header ∧ data = sampleMessage.data)
    receiverHeld sampleStream ?_ ?_ ?_ hitem rfl hnames
  · intro sig pk x h
    simp only [genuineCrates, standIn] at h
    split at h
    case isFalse => cases h
    case isTrue hg =>
      cases h
      exact of_decide_eq_true hg.2
  · rintro pk x ⟨rfl, rfl⟩
    exact ⟨1, sampleMessage.header, sampleMessage.data, ⟨rfl, rfl, rfl⟩, by decide, by decide, rfl⟩
  · have hS : ∀ x ∈ signedBytes (fun _ v header data => v = 1 ∧ header = sampleMessage.header ∧
        data = sampleMessage.data) ∪ receivedBytes sampleStream,
        x = sampleMessage.serializeUnsigned := by
      rintro x (⟨_, v, header, data, ⟨rfl, rfl, rfl⟩, rfl⟩ | ⟨body, hbody, m, rest, hm, rfl⟩)
      · rfl
      · rw [frames_sampleStream, List.mem_singleton] at hbody
        rw [hbody, deserialize_sampleMessage] at hm
        cases hm
        rfl
    intro x hx y hy _ _ _
    rw [hS x hx, hS y hy]

end ShardusNet.Wire
