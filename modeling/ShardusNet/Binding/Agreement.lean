import ShardusNet.Binding.Outstanding
import ShardusNet.Wire.Delivery
import ShardusNet.Wire.HeaderRoundTrip
/-!
# What the sender queues and what the listener takes

`send_with_header` and `multi_send_with_header` against the checks of `receive`, at a peer with the
same hash key. The two sides share the factories of `header_factory.rs` and the codec of
`message.rs`; the limit on the size of a header is in `lib.rs` and only the listener reads it.

* `Carries`: the body of every frame that a call queues, by `sendWithHeader_carries` and
  `multiSendWithHeader_carries`.
* `Accepted`: the checks of `receive` on the body of a frame.
* `queued_accepted_iff`: a queued frame is accepted exactly when its serialized header is within the
  limit; over the limit it is skipped without an error.
-/

namespace ShardusNet.Binding
open Wire ByteCodec

section
variable (cfg : Config) (headerVersion : UInt8) (headerJsString dataJsString : String)

/-- The body of a frame: the signed message of the header and the data, behind the marker. -/
def Carries (body : Bytes) : Prop :=
  ∃ h m, headerVersion = 1 ∧
    headerFromJsonString cfg.fromStr headerJsString headerVersion = some (.V1 h) ∧
    signedMessage cfg.crates cfg.crypto cfg.keyPair 1 (.V1 h) (utf8 dataJsString) = .ok m ∧
    body = wrapSerializedMessage m.serialize

/-- A call of `send_with_header` or `multi_send_with_header` with this header and these data. -/
inductive SendsWithHeader : Call → Prop where
  | one (resolve port host completeTx) :
      SendsWithHeader (sendWithHeader cfg resolve
        ⟨port, host, headerVersion, headerJsString, dataJsString⟩ completeTx)
  | multi (resolve ports hosts awaitProcessing completeTx) :
      SendsWithHeader (multiSendWithHeader cfg resolve
        ⟨ports, hosts, headerVersion, headerJsString, dataJsString, awaitProcessing⟩ completeTx)

/-- The header of the call, serialized, is within the limit. -/
def HeaderWithinLimit : Prop :=
  ∃ h, headerFromJsonString cfg.fromStr headerJsString headerVersion = some (.V1 h) ∧
    h.serialize.length ≤ HEADER_SIZE_LIMIT_IN_BYTES

end

/-- The checks of `receive` on the body of a frame: it is behind the marker and parses as a message,
    its header is within the limit, its signature verifies, its header parses and gives the length
    of its data. -/
def Accepted (crates : Crates) (crypto : ShardusCrypto) (body : Bytes) : Prop :=
  ∃ m rest header rest', body.head? = some 1 ∧ Message.deserialize body.tail = some (m, rest) ∧
    m.header.length ≤ HEADER_SIZE_LIMIT_IN_BYTES ∧ m.verify crates crypto = .ok true ∧
    headerDeserializeFactory m.headerVersion m.header = some (header, rest') ∧
    header.validate m.data = true

variable {cfg : Config} {headerVersion : UInt8} {headerJsString dataJsString : String}

/-! ## What a call queues -/

/-- A message that `signedMessage` built from the header of a call is carried by its frame. -/
lemma carries_of_signedMessage {header m}
    (hh : headerFromJsonString cfg.fromStr headerJsString headerVersion = some header)
    (hm : signedMessage cfg.crates cfg.crypto cfg.keyPair headerVersion header (utf8 dataJsString) =
      .ok m) :
    Carries cfg headerVersion headerJsString dataJsString (wrapSerializedMessage m.serialize) := by
  obtain ⟨rfl, h, rfl⟩ := headerFromJsonString_eq_some hh
  exact ⟨h, m, rfl, hh, hm, rfl⟩

/-- What `send_with_header` queues. -/
lemma sendWithHeader_carries {resolve port host tx q}
    (hq : some q ∈ (sendWithHeader cfg resolve
      ⟨port, host, headerVersion, headerJsString, dataJsString⟩ tx).channels) :
    Carries cfg headerVersion headerJsString dataJsString q.data := by
  unfold sendWithHeader at hq
  split at hq
  case h_1 => simp at hq
  case h_2 header hh =>
    split at hq
    case h_1 address rest hr =>
      simp only [Wire.sendWithHeader] at hq
      cases hm : signedMessage cfg.crates cfg.crypto cfg.keyPair headerVersion header
          (utf8 dataJsString) with
      | error p => simp [hm, bind, Except.bind] at hq
      | ok m =>
        simp only [hm, bind, Except.bind, pure, Except.pure, List.mem_singleton,
          Option.some.injEq] at hq
        subst hq
        exact carries_of_signedMessage hh hm
    case h_2 => simp at hq
    case h_3 => simp at hq

/-- What `multi_send_with_header` queues. -/
lemma multiSendWithHeader_carries {resolve ports hosts awaitProcessing tx q}
    (hq : some q ∈ (multiSendWithHeader cfg resolve
      ⟨ports, hosts, headerVersion, headerJsString, dataJsString, awaitProcessing⟩ tx).channels) :
    Carries cfg headerVersion headerJsString dataJsString q.data := by
  obtain ⟨_, e⟩ | ⟨header, hh, ⟨_, e, _⟩ | ⟨_, m, _, _, hm, e⟩⟩ := multiSendWithHeader_cases cfg resolve
    ⟨ports, hosts, headerVersion, headerJsString, dataJsString, awaitProcessing⟩ tx
  · rw [e] at hq
    cases hq
  · simp [e] at hq
  · simp only [e, multiQueued, List.mem_append, List.mem_map, List.mem_replicate, reduceCtorEq,
      and_false, or_false, Option.some.injEq] at hq
    obtain ⟨_, ⟨_, _, rfl⟩, rfl⟩ := hq
    exact carries_of_signedMessage hh hm

/-- What either function queues. -/
lemma SendsWithHeader.carries {call q}
    (hcall : SendsWithHeader cfg headerVersion headerJsString dataJsString call)
    (hq : some q ∈ call.channels) : Carries cfg headerVersion headerJsString dataJsString q.data := by
  cases hcall with
  | one => exact sendWithHeader_carries hq
  | multi => exact multiSendWithHeader_carries hq

/-! ## What the listener does with it -/

section
variable (remoteAddr : SocketAddr) {body : Bytes}

/-- A frame that carries a message is handled as that message. -/
lemma Carries.handled (hc : Carries cfg headerVersion headerJsString dataJsString body)
    (hlen : body.length < 2 ^ 32) :
    ∃ h m, headerFromJsonString cfg.fromStr headerJsString headerVersion = some (.V1 h) ∧
      signedMessage cfg.crates cfg.crypto cfg.keyPair 1 (.V1 h) (utf8 dataJsString) = .ok m ∧
      (utf8 dataJsString).length < 2 ^ 32 ∧ body.head? = some 1 ∧
      Message.deserialize body.tail = some (m, []) ∧
      m.header.length = h.serialize.length ∧
      handleFrame cfg.crates cfg.crypto remoteAddr body =
        handleParsed cfg.crates cfg.crypto remoteAddr m := by
  obtain ⟨h, m, rfl, hh, hm, rfl⟩ := hc
  have hfits := fits_of_length_lt hlen
  have hp : Message.deserialize m.serialize = some (m, []) := by
    rw [Message.deserialize_eq_some]
    exact ⟨hfits, (List.append_nil _).symm⟩
  obtain ⟨_, _, e⟩ := (signedMessage_eq_ok cfg.crates cfg.crypto cfg.keyPair).mp hm
  refine ⟨h, m, hh, hm, ?_, rfl, hp, ?_, ?_⟩
  · have hd := hfits.data
    rw [e] at hd
    exact hd
  · -- setting the message length leaves the length of the header as it is
    rw [e, HeaderV1.length_serialize, HeaderV1.length_serialize]
  · rw [handleFrame_wrap, handleMessage, hp]

/-- The limit is on the header that was parsed. -/
lemma headerWithinLimit_iff {h}
    (hh : headerFromJsonString cfg.fromStr headerJsString headerVersion = some (.V1 h)) :
    HeaderWithinLimit cfg headerVersion headerJsString ↔
      h.serialize.length ≤ HEADER_SIZE_LIMIT_IN_BYTES := by
  constructor
  · rintro ⟨h', hh', hl⟩
    rw [hh] at hh'
    cases hh'
    exact hl
  · intro hl
    exact ⟨h, hh, hl⟩

/-- A frame over the limit is skipped. -/
lemma Carries.skipped (hc : Carries cfg headerVersion headerJsString dataJsString body)
    (hlen : body.length < 2 ^ 32) (hw : ¬ HeaderWithinLimit cfg headerVersion headerJsString) :
    handleFrame cfg.crates cfg.crypto remoteAddr body = .ok none := by
  obtain ⟨h, m, hh, _, _, _, _, hl, hhandle⟩ := hc.handled remoteAddr hlen
  rw [headerWithinLimit_iff hh, ← hl] at hw
  rw [hhandle, handleParsed_eq_none]
  exact .inl (Nat.lt_of_not_le hw)

/-- A frame within the limit is delivered, with the data of the call. -/
lemma Carries.delivered (hk : cfg.keyPair.Opens cfg.crates)
    (hc : Carries cfg headerVersion headerJsString dataJsString body) (hlen : body.length < 2 ^ 32)
    (hw : HeaderWithinLimit cfg headerVersion headerJsString) :
    ∃ metadata, handleFrame cfg.crates cfg.crypto remoteAddr body =
      .ok (some ⟨dataJsString, remoteAddr, some metadata⟩) := by
  obtain ⟨h, m, hh, hm, hd, _, _, hl, hhandle⟩ := hc.handled remoteAddr hlen
  have hv := verify_signedMessage cfg.crates cfg.crypto cfg.keyPair hk hm
  rw [hhandle, handleParsed_signedMessage cfg.crates cfg.crypto cfg.keyPair remoteAddr hv
    ((headerWithinLimit_iff hh).mp hw) hd hm]
  exact ⟨_, rfl⟩

/-- A frame that is delivered as a message has passed the checks. -/
lemma accepted_of_delivered {crates crypto msg metadata} (hhead : body.head? = some 1)
    (h : handleFrame crates crypto remoteAddr body = .ok (some ⟨msg, remoteAddr, some metadata⟩)) :
    Accepted crates crypto body := by
  rw [handleFrame, if_pos hhead, handleMessage] at h
  cases hp : Message.deserialize body.tail with
  | none =>
    rw [hp] at h
    cases h
  | some mr =>
    obtain ⟨m, rest⟩ := mr
    rw [hp] at h
    obtain ⟨hl, hv, header, rest', _, hf, hval, _⟩ :=
      (handleParsed_eq_some crates crypto remoteAddr).mp h
    exact ⟨m, rest, header, rest', hhead, hp, hl, hv, hf, hval⟩

end

/-- A frame that carries a message is accepted exactly when its header is within the limit. -/
lemma Carries.accepted_iff {body} (hk : cfg.keyPair.Opens cfg.crates)
    (hc : Carries cfg headerVersion headerJsString dataJsString body) (hlen : body.length < 2 ^ 32) :
    Accepted cfg.crates cfg.crypto body ↔ HeaderWithinLimit cfg headerVersion headerJsString := by
  obtain ⟨h, m, hh, _, _, hhead, hp, hl, _⟩ := hc.handled sampleAddr hlen
  constructor
  · rintro ⟨m', rest, header, rest', _, hp', hl', _⟩
    rw [hp] at hp'
    cases hp'
    rw [headerWithinLimit_iff hh, ← hl]
    exact hl'
  · intro hw
    obtain ⟨metadata, hdeliver⟩ := hc.delivered sampleAddr hk hlen hw
    exact accepted_of_delivered sampleAddr hhead hdeliver

/-- A frame that a call has queued passes the checks of a peer with the same hash key exactly when
    the serialized header is within the limit. Within the limit the peer delivers the data; over the
    limit it skips the frame. -/
theorem queued_accepted_iff (hk : cfg.keyPair.Opens cfg.crates) (peer : ShardusCrypto)
    (hkey : peer.hashKey = cfg.crypto.hashKey) (remoteAddr : SocketAddr) {call : Call}
    (hcall : SendsWithHeader cfg headerVersion headerJsString dataJsString call) {q : QueuedSend}
    (hq : some q ∈ call.channels) (hlen : q.data.length < 2 ^ 32) :
    (Accepted cfg.crates peer q.data ↔ HeaderWithinLimit cfg headerVersion headerJsString) ∧
      (HeaderWithinLimit cfg headerVersion headerJsString →
        ∃ metadata, handleFrame cfg.crates peer remoteAddr q.data =
          .ok (some ⟨dataJsString, remoteAddr, some metadata⟩)) ∧
      (¬ HeaderWithinLimit cfg headerVersion headerJsString →
        handleFrame cfg.crates peer remoteAddr q.data = .ok none) := by
  have hpeer : peer = cfg.crypto := by
    cases peer
    cases hkey
    rfl
  subst hpeer
  have hc := hcall.carries hq
  exact ⟨hc.accepted_iff hk hlen, hc.delivered remoteAddr hk hlen, hc.skipped remoteAddr hlen⟩

/-! ## A header within the limit and one over it -/

/-- A call with a header and the data "ok". -/
def sampleArgs (h : HeaderV1) : SendWithHeaderArgs := ⟨44444, "127.0.0.1", 1, h.toJsonString, "ok"⟩

/-- The header of a clean header's text. -/
lemma headerFromJsonString_sample {h : HeaderV1} (hc : h.Clean) :
    headerFromJsonString sampleConfig.fromStr h.toJsonString 1 =
      some (.V1 { h with compression := .None }) := by
  have hparse : standInFromStr h.toJsonString = some { h with compression := .None } :=
    documented_standInFromStr.complete (HeaderV1.parse_toJsonString hc)
  have e : sampleConfig.fromStr = standInFromStr := rfl
  rw [e, headerFromJsonString, if_pos rfl, HeaderV1.fromJsonString, hparse, Option.map_some]

/-- A call with a clean header queues one frame and returns. -/
lemma sendWithHeader_sample {h : HeaderV1} (hc : h.Clean) :
    ∃ q, (sendWithHeader sampleConfig sampleResolve (sampleArgs h) 0).outcome = .ok () ∧
      (sendWithHeader sampleConfig sampleResolve (sampleArgs h) 0).channels = [some q] ∧
      q.data.length = 148 + h.serialize.length := by
  have hh := headerFromJsonString_sample hc
  obtain ⟨m, hm⟩ : ∃ m, signedMessage sampleConfig.crates sampleConfig.crypto sampleConfig.keyPair 1
      (.V1 { h with compression := .None }) (utf8 "ok") = .ok m := by
    simp only [signedMessage_eq_ok]
    exact ⟨_, _, rfl, rfl⟩
  have e : sendWithHeader sampleConfig sampleResolve (sampleArgs h) 0 =
      ⟨1, [some ⟨sampleAddr, wrapSerializedMessage m.serialize, 0⟩], true, .ok ()⟩ :=
    sendWithHeader_eq_ok hh rfl hm
  refine ⟨⟨sampleAddr, wrapSerializedMessage m.serialize, 0⟩, by rw [e], by rw [e], ?_⟩
  obtain ⟨digest, hd, rfl⟩ := (signedMessage_eq_ok _ _ _).mp hm
  have hdigest : digest.length = 32 := by
    cases hd
    exact length_le 32 _
  have hdata : (utf8 "ok").length = 2 := rfl
  simp only [length_wrap_serialize, HeaderV1.length_serialize, hdata, sampleConfig, standIn,
    standInKeyPair, List.length_append, List.length_replicate, hdigest]
  omega

/-- The header used in examples is within the limit, and its frame is delivered. -/
theorem queued_accepted_sampleHeader :
    ∃ q, (sendWithHeader sampleConfig sampleResolve (sampleArgs sampleHeader) 0).channels = [some q] ∧
      Accepted sampleConfig.crates standInCrypto q.data := by
  have hc : sampleHeader.Clean := ⟨by decide, by decide, by decide⟩
  obtain ⟨q, _, hq, hlen⟩ := sendWithHeader_sample hc
  have hmem : some q ∈ (sendWithHeader sampleConfig sampleResolve (sampleArgs sampleHeader) 0).channels := by
    rw [hq]
    exact List.mem_singleton_self _
  have hshort : sampleHeader.serialize.length = 40 := rfl
  have hw : HeaderWithinLimit sampleConfig 1 sampleHeader.toJsonString :=
    ⟨_, headerFromJsonString_sample hc, by decide⟩
  have hk : sampleConfig.keyPair.Opens sampleConfig.crates := standInKeyPair_opens
  have h := queued_accepted_iff hk standInCrypto rfl sampleAddr (.one sampleResolve 44444 "127.0.0.1" 0) hmem
    (by omega)
  exact ⟨q, hq, h.1.mpr hw⟩

/-- A call with a clean header over the limit returns and queues a frame, and the peer skips it. -/
lemma sendWithHeader_sample_skipped {h : HeaderV1} (hclean : h.Clean)
    (hlong : HEADER_SIZE_LIMIT_IN_BYTES < h.serialize.length) (hlt : h.serialize.length < 2 ^ 31) :
    ∃ q, (sendWithHeader sampleConfig sampleResolve (sampleArgs h) 0).outcome = .ok () ∧
      (sendWithHeader sampleConfig sampleResolve (sampleArgs h) 0).channels = [some q] ∧
      ¬ Accepted sampleConfig.crates sampleConfig.crypto q.data ∧
      handleFrame sampleConfig.crates sampleConfig.crypto sampleAddr q.data = .ok none := by
  obtain ⟨q, hok, hq, hlen⟩ := sendWithHeader_sample hclean
  have hmem : some q ∈ (sendWithHeader sampleConfig sampleResolve (sampleArgs h) 0).channels := by
    rw [hq]
    exact List.mem_singleton_self _
  have hc := sendWithHeader_carries hmem
  have hw : ¬ HeaderWithinLimit sampleConfig 1 h.toJsonString := by
    rw [headerWithinLimit_iff (headerFromJsonString_sample hclean)]
    rw [HeaderV1.length_serialize] at hlong ⊢
    exact Nat.not_le_of_lt hlong
  refine ⟨q, hok, hq, ?_, ?_⟩
  · rw [hc.accepted_iff standInKeyPair_opens (by omega)]
    exact hw
  · exact hc.skipped sampleAddr (by omega) hw

/-- A header with a sender of 4097 characters. -/
def longSenderHeader : HeaderV1 :=
  { sampleHeader with senderId := String.ofList (List.replicate 4097 'a') }

/-- The long header is over the limit. -/
lemma length_longSenderHeader : longSenderHeader.serialize.length = 4133 := by
  have hsender : (utf8 longSenderHeader.senderId).length = 4097 := length_utf8_replicate 4097 'a'
  have htracker : (utf8 longSenderHeader.trackerId).length = 0 := rfl
  have hverification : (utf8 longSenderHeader.verificationData).length = 0 := rfl
  rw [HeaderV1.length_serialize, hsender, htracker, hverification]

/-- The call with the long header returns and queues a frame, and the peer skips the frame. -/
theorem queued_fails_longSenderHeader :
    ∃ q, (sendWithHeader sampleConfig sampleResolve (sampleArgs longSenderHeader) 0).outcome = .ok () ∧
      (sendWithHeader sampleConfig sampleResolve (sampleArgs longSenderHeader) 0).channels = [some q] ∧
      ¬ Accepted sampleConfig.crates sampleConfig.crypto q.data ∧
      handleFrame sampleConfig.crates sampleConfig.crypto sampleAddr q.data = .ok none := by
  have hsender : Clean longSenderHeader.senderId := by
    intro c hc
    rw [longSenderHeader, String.toList_ofList] at hc
    rw [List.eq_of_mem_replicate hc]
    decide
  apply sendWithHeader_sample_skipped ⟨hsender, by decide, by decide⟩
  · rw [length_longSenderHeader]
    decide
  · rw [length_longSenderHeader]
    decide

end ShardusNet.Binding
