import ShardusNet.Binding.Agreement
import ShardusNet.Node.Texts
/-!
# Responses

Port of `respond` in `src/index.ts`, from the text of an ask down to the frame that the binding
queues, with the options that it depends on: `SnOpts` and `validateSnOpts` of `src/types.ts`,
`stringifyData` of `src/util/Encoding.ts` and the conversions of the arguments in
`send_with_header`.

An instance with a `customStringifier` writes any texts whatsoever, so that the other side can read
any values as the properties of an ask: `respond` is modelled for all of them, with the conversions
of `+` and `>`.

* `readAsk_stringify`: what is read of an ask that `JSON.stringify` has written.
* `parse_stringify`: the text of the combined header of a response is the object with its UUID.
* `respond_answers_iff`: when a response is queued, for the asker's port and address, under the UUID
  of the ask.
-/

namespace ShardusNet.Node
open JsonText Wire Binding ByteCodec

/-! ## Options -/

/-- `CombinedHeader`. Its `uuid` is the one that was read, which may be any value. -/
structure CombinedHeader where
  uuid : Option Value
  senderId : Option String
  trackerId : Option String
  verificationData : Option String
  compression : Option String

/-- The `augData` of an ask; its other times are zero. -/
structure AskData (D : Type*) where
  data : D
  UUID : String
  PORT : JsNumber
  ADDRESS : String
  sendTime : ℤ
  timeout : JsNumber

/-- The `sendData` of a response; its `ADDRESS` is undefined. -/
structure ResponseData (D : Type*) where
  data : D
  UUID : Option Value
  PORT : Option Value
  sendTime : Option Value
  receivedTime : ℤ
  replyTime : ℤ
  replyReceivedTime : ℤ
  msgDir : MsgDir

/-- A `customStringifier`, on the kinds of values that an ask and a response give to it. -/
structure Stringifier (D : Type*) where
  ask : AskData D → String
  header : CombinedHeader → String
  response : ResponseData D → String

/-- `senderOpts`. -/
structure SenderOpts where
  useLruCache : Option Bool
  lruSize : JsNumber

/-- The `crypto` of `SnOpts`. -/
structure CryptoOpts where
  hashKey : String
  signingSecretKeyHex : String

/-- `SnOpts`; `headerOpts` is its `sendHeaderVersion`. -/
structure SnOpts (D : Type*) where
  port : JsNumber
  address : Option String
  senderOpts : Option SenderOpts
  headerOpts : Option JsNumber
  customStringifier : Option (Stringifier D)
  crypto : CryptoOpts

/-- `validateSnOpts`, on options of their types. -/
def validateSnOpts {D : Type*} (opts : SnOpts D) : Except String Unit :=
  if !opts.port.truthy then .error "snq: must supply port"
  else if opts.crypto.hashKey = "" then .error "snq: must supply hashKey"
  else
    match opts.senderOpts with
    | some ⟨some true, lruSize⟩ =>
      if !lruSize.truthy then .error "snq: must supply lruSize when using lruCache" else .ok ()
    | _ => .ok ()

/-- What `Sn` returns: an instance with accepted options, and the binding that was made for it. The
    key of the hash is that of the first instance of its process. -/
structure Endpoint (D : Type*) where
  opts : SnOpts D
  cfg : Config
  /-- the options are accepted -/
  valid : validateSnOpts opts = .ok ()
  /-- the binding has the key pair of the options -/
  created : ShardusCrypto.getKeyPairUsingSk cfg.crates (.hex opts.crypto.signingSecretKeyHex) =
    .ok cfg.keyPair

/-! ## Texts -/

/-- What `JSON.stringify` takes data for: a JSON value, or nothing. -/
structure JsonForm (D : Type*) where
  value : D → Option Value
  /-- the value is one of JSON -/
  isJson : ∀ {d v}, value d = some v → IsJson v

/-- The properties of an ask. -/
def AskData.properties {D : Type*} (json : JsonForm D) (a : AskData D) :
    List (String × Option Value) :=
  [("data", json.value a.data),
    ("UUID", some (.str (utf16 a.UUID))),
    ("PORT", some (.num a.PORT)),
    ("ADDRESS", some (.str (utf16 a.ADDRESS))),
    ("sendTime", some (.num (.finite a.sendTime))),
    ("receivedTime", some (.num (.finite 0))),
    ("replyTime", some (.num (.finite 0))),
    ("replyReceivedTime", some (.num (.finite 0))),
    ("timeout", some (.num a.timeout)),
    ("msgDir", some (.str (utf16 MsgDir.ask.text)))]

/-- The properties of a combined header. -/
def CombinedHeader.properties (h : CombinedHeader) : List (String × Option Value) :=
  [("uuid", h.uuid),
    ("sender_id", h.senderId.map fun s => .str (utf16 s)),
    ("tracker_id", h.trackerId.map fun s => .str (utf16 s)),
    ("verification_data", h.verificationData.map fun s => .str (utf16 s)),
    ("compression", h.compression.map fun s => .str (utf16 s))]

/-- The properties of a response. -/
def ResponseData.properties {D : Type*} (json : JsonForm D) (r : ResponseData D) :
    List (String × Option Value) :=
  [("data", json.value r.data),
    ("UUID", r.UUID),
    ("PORT", r.PORT),
    ("ADDRESS", none),
    ("sendTime", r.sendTime),
    ("receivedTime", some (.num (.finite r.receivedTime))),
    ("replyTime", some (.num (.finite r.replyTime))),
    ("replyReceivedTime", some (.num (.finite r.replyReceivedTime))),
    ("msgDir", some (.str (utf16 r.msgDir.text)))]

/-- `stringifyData`, given what `JSON.stringify` writes. -/
def stringifyData {α : Type*} (json : α → String) (data : α) (customStringifier : Option (α → String)) :
    String :=
  match customStringifier with
  | some customStringifier => customStringifier data
  | none => json data

/-! ## Asks and responses -/

/-- What `respond` reads of a message, a property that is not there being undefined. -/
structure Ask where
  UUID : Option Value
  PORT : Option Value
  sendTime : Option Value
  timeout : Option Value

/-- The properties of what was parsed; those of `null` cannot be read. -/
def Ask.ofValue : Value → Option Ask
  | .null => none
  | v => some ⟨v.own (utf16 "UUID"), v.own (utf16 "PORT"), v.own (utf16 "sendTime"), v.own (utf16 "timeout")⟩

/-- What the other side reads of a text. -/
def readAsk (node : NodeBuffer) (text : String) : Option Ask :=
  (parseText node (utf16 text)).bind Ask.ofValue

/-- `send_with_header`, called from JavaScript: the port has to be a number, and it and the version
    are converted with `as`. -/
def sendWithHeaderFromJs (cfg : Config) (resolve : Resolve) (port : Option Value) (address : String)
    (version : JsNumber) (stringifiedHeader stringifiedData : String) (completeTx : ℕ) : Call :=
  match port with
  | some (.num port) =>
    Binding.sendWithHeader cfg resolve ⟨UInt16.ofNat (port.toUInt 16), address,
      UInt8.ofNat (version.toUInt 8), stringifiedHeader, stringifiedData⟩ completeTx
  | _ => .badArgument

/-- `DEFAULT_ADDRESS`. -/
def defaultAddress : String := "0.0.0.0"

/-- `ADDRESS`. -/
def SnOpts.listenAddress {D : Type*} (opts : SnOpts D) : String :=
  match opts.address with
  | some address => if address = "" then defaultAddress else address
  | none => defaultAddress

namespace Endpoint
variable {D : Type*} (endpoint : Endpoint D) (json : JsonForm D)

/-- The `sendHeaderVersion` of `HEADER_OPTS`. -/
def sendHeaderVersion : JsNumber := endpoint.opts.headerOpts.getD (.finite 0)

/-- The `augData` of an ask of `send` or `sendWithHeader` with this UUID. -/
def ask (uuid : Uuid) (timeout : JsNumber) (sendTime : ℤ) (data : D) : AskData D where
  data := data
  UUID := String.ofList uuid.display
  PORT := endpoint.opts.port
  ADDRESS := endpoint.opts.listenAddress
  sendTime := sendTime
  timeout := timeout

/-- The text of an ask. -/
def stringifyAsk (augData : AskData D) : String :=
  stringifyData (fun a => stringifyProperties (a.properties json)) augData
    (endpoint.opts.customStringifier.map Stringifier.ask)

/-- The text of a combined header. -/
def stringifyHeader (header : CombinedHeader) : String :=
  stringifyData (fun h => stringifyProperties h.properties) header
    (endpoint.opts.customStringifier.map Stringifier.header)

/-- The text of the data of a response. -/
def stringifyResponse (sendData : ResponseData D) : String :=
  stringifyData (fun r => stringifyProperties (r.properties json)) sendData
    (endpoint.opts.customStringifier.map Stringifier.response)

end Endpoint

/-- `sendData`. -/
def Ask.sendData {D : Type*} (ask : Ask) (data : D) (receivedTime replyTime : ℤ) : ResponseData D where
  data := data
  UUID := ask.UUID
  PORT := ask.PORT
  sendTime := ask.sendTime
  receivedTime := receivedTime
  replyTime := replyTime
  replyReceivedTime := 0
  msgDir := .resp

/-- `combinedHeader`, when `respond` is called without a header. -/
def Ask.combinedHeader (ask : Ask) : CombinedHeader := ⟨ask.UUID, none, none, none, none⟩

section
variable (node : NodeBuffer)

/-- The primitive value that a value is converted to, if that does not throw. -/
def primitive : Option Value → Option (Option Value)
  | some (.arr vs) => ((Value.arr vs).text node).map fun s => some (.str s)
  | some (.obj ms) => ((Value.obj ms).text node).map fun s => some (.str s)
  | some (.buffer bytes) => some (some (.str (node.text bytes)))
  | v => some v

/-- The string of a primitive value. -/
def primitiveText : Option Value → Str
  | none => utf16 "undefined"
  | some v => (v.text node).getD []

/-- The number of a primitive value. -/
def primitiveNumber : Option Value → JsNumber
  | some .null => .finite 0
  | some (.bool b) => .finite (if b then 1 else 0)
  | some (.num x) => x
  | some (.str s) => .ofString s
  | _ => .nan

/-- `a + b`, if it does not throw. -/
def plus (a b : Option Value) : Option Value :=
  (primitive node a).bind fun a => (primitive node b).map fun b =>
    match a, b with
    | some (.str s), b => .str (s ++ primitiveText node b)
    | a, some (.str s) => .str (primitiveText node a ++ s)
    | a, b => .num ((primitiveNumber a).add (primitiveNumber b))

/-- `replyTime > augData.sendTime + augData.timeout`, if it does not throw. -/
def Ask.late (ask : Ask) (replyTime : ℤ) : Option Bool :=
  (plus node ask.sendTime ask.timeout).map fun deadline =>
    (primitiveNumber (some deadline)).lt (.finite replyTime)

end

section
variable {D : Type*} (node : NodeBuffer) (json : JsonForm D)
  (responder : Endpoint D) (resolve : Resolve)

/-- `respond(data)`: nothing when it is late or the comparison throws, and else a call of
    `send_with_header`, whose error is printed. -/
def respond (ask : Ask) (remoteAddress : String) (receivedTime : ℤ) (data : D) (replyTime : ℤ)
    (completeTx : ℕ) : Option Call :=
  match ask.late node replyTime with
  | some false =>
    some (sendWithHeaderFromJs responder.cfg resolve ask.PORT remoteAddress responder.sendHeaderVersion
      (responder.stringifyHeader ask.combinedHeader)
      (responder.stringifyResponse json (ask.sendData data receivedTime replyTime)) completeTx)
  | _ => none

end

/-! ## What is written and read -/

/-- The value that the text of a value stands for: `null`, for a number that is not finite. -/
def Value.written : Value → Value
  | .num (.finite q) => .num (.finite q)
  | .num _ => .null
  | v => v

/-- Properties with the values that their texts stand for. -/
def writtenProperties (ps : List (String × Option Value)) : List (String × Option Value) :=
  ps.map fun p => (p.1, p.2.map Value.written)

/-- A value and what it is written as have one text. -/
lemma Value.json_written (v : Value) : v.written.json = v.json := by
  cases v with
  | num x => cases x <;> rfl
  | _ => rfl

/-- A JSON value is written as it is. -/
lemma IsJson.written_eq {v : Value} (h : IsJson v) : v.written = v := by
  cases h <;> rfl

/-- A number is a JSON value, once it is written. -/
lemma isJson_written_num {x : JsNumber} (h : x.IsNumber) : IsJson (Value.num x).written := by
  cases x with
  | finite q => exact .num (h q rfl)
  | _ => exact .null

/-- Writing keeps the names. -/
lemma map_fst_writtenProperties (ps : List (String × Option Value)) :
    (writtenProperties ps).map Prod.fst = ps.map Prod.fst := by
  rw [writtenProperties, List.map_map]
  rfl

/-- Properties have the text of what they are written as. -/
lemma stringifyProperties_written (ps : List (String × Option Value)) :
    stringifyProperties (writtenProperties ps) = stringifyProperties ps := by
  have hmembers : jsonMembers (defined (writtenProperties ps)) = jsonMembers (defined ps) := by
    induction ps with
    | nil => rfl
    | cons p ps ih =>
      obtain ⟨name, v⟩ := p
      cases v with
      | none => exact ih
      | some v =>
        show (utf16 name, v.written.json) :: jsonMembers (defined (writtenProperties ps)) =
          (utf16 name, v.json) :: jsonMembers (defined ps)
        rw [ih, v.json_written]
  rw [stringifyProperties, stringifyProperties, stringify, stringify, Value.json, Value.json, hmembers]

/-- Properties with distinct names that are written as JSON values. -/
structure Writable (ps : List (String × Option Value)) : Prop where
  nodup : (ps.map Prod.fst).Nodup
  isJson : ∀ p ∈ ps, ∀ v, p.2 = some v → IsJson v.written

section
variable {node : NodeBuffer} {ps ps' : List (String × Option Value)}

/-- What they are written as is a JSON value. -/
lemma Writable.value (h : Writable ps) : IsJson (.obj (defined (writtenProperties ps))) := by
  apply isJson_defined
  · rw [map_fst_writtenProperties]
    exact h.nodup
  · intro written hmem v hv
    obtain ⟨p, hp, rfl⟩ := List.mem_map.mp hmem
    obtain ⟨v', hv', rfl⟩ := Option.map_eq_some_iff.mp hv
    exact h.isJson p hp v' hv'

/-- The text of properties is a JSON text. -/
lemma Writable.parse_eq (h : Writable ps) : parse (utf16 (stringifyProperties ps)) =
    some (Value.obj (defined (writtenProperties ps))).json := by
  rw [← stringifyProperties_written, utf16_stringifyProperties h.value, stringify,
    parse_write h.value.lexical]

/-- What is read of an ask from the text of properties that the reviver looks at without throwing. -/
lemma Writable.readAsk_eq (h : Writable ps) (hdataType : "dataType" ∉ ps.map Prod.fst)
    (hown : "hasOwnProperty" ∉ ps.map Prod.fst)
    (hrevived : revivedProperties node (writtenProperties ps) = some ps')
    {UUID PORT sendTime timeout} (hUUID : ("UUID", UUID) ∈ ps') (hPORT : ("PORT", PORT) ∈ ps')
    (hsendTime : ("sendTime", sendTime) ∈ ps') (htimeout : ("timeout", timeout) ∈ ps') :
    readAsk node (stringifyProperties ps) = some ⟨UUID, PORT, sendTime, timeout⟩ := by
  have hwritten := map_fst_writtenProperties ps
  have hnodup : (ps'.map Prod.fst).Nodup := by
    rw [map_fst_revivedProperties hrevived, hwritten]
    exact h.nodup
  have hparsed : parseText node (utf16 (stringifyProperties ps)) = some (.obj (defined ps')) := by
    rw [parseText, h.parse_eq, Option.bind_some, h.value.parsed_json,
      revive_defined (by rwa [hwritten]) (by rwa [hwritten]), hrevived]
    rfl
  rw [readAsk, hparsed]
  show some (⟨_, _, _, _⟩ : Ask) = _
  simp only [Value.own, get_defined hnodup hUUID, get_defined hnodup hPORT, get_defined hnodup hsendTime,
    get_defined hnodup htimeout]

end

section
variable {D : Type*} (json : JsonForm D)

/-- What is written is a JSON value. -/
lemma JsonForm.isJson_written {data : D} {v} (h : json.value data = some v) : IsJson v.written := by
  rw [(json.isJson h).written_eq]
  exact json.isJson h

/-- The numbers of an ask are numbers. -/
structure AskData.Numeric (a : AskData D) : Prop where
  PORT : a.PORT.IsNumber
  sendTime : JsNumber.IsDouble a.sendTime
  timeout : a.timeout.IsNumber

/-- What is read of an ask that `JSON.stringify` has written. -/
def AskData.read (a : AskData D) : Ask where
  UUID := some (.str (utf16 a.UUID))
  PORT := some (Value.num a.PORT).written
  sendTime := some (.num (.finite a.sendTime))
  timeout := some (Value.num a.timeout).written

/-- The names of the fields, in their order. -/
lemma AskData.map_fst_properties (a : AskData D) : (a.properties json).map Prod.fst =
    ["data", "UUID", "PORT", "ADDRESS", "sendTime", "receivedTime", "replyTime", "replyReceivedTime",
      "timeout", "msgDir"] := rfl

/-- The properties of an ask are written as JSON values. -/
lemma AskData.writable {a : AskData D} (h : a.Numeric) : Writable (a.properties json) where
  nodup := by
    rw [a.map_fst_properties]
    decide
  isJson := by
    have hsome : ∀ {v : Value}, IsJson v.written → ∀ v', some v = some v' → IsJson v'.written :=
      fun hv _ e => Option.some.inj e ▸ hv
    have hzero : IsJson (Value.num (.finite 0)) := .num (by decide +kernel)
    simp only [properties, List.forall_mem_cons]
    exact ⟨fun _ => json.isJson_written, hsome (.str _), hsome (isJson_written_num h.PORT),
      hsome (.str _), hsome (.num h.sendTime), hsome hzero, hsome hzero, hsome hzero,
      hsome (isJson_written_num h.timeout), hsome (.str _), nofun⟩

/-- What is read of an ask that `JSON.stringify` has written, if its data does not make the reviver
    throw. -/
lemma readAsk_stringify (node : NodeBuffer) {a : AskData D} (h : a.Numeric) :
    readAsk node (stringifyProperties (a.properties json)) =
      (revivedData node (json.value a.data)).map fun _ => a.read := by
  have hwrites := a.writable json h
  have hdataType : "dataType" ∉ (a.properties json).map Prod.fst := by
    rw [a.map_fst_properties]
    decide
  have hown : "hasOwnProperty" ∉ (a.properties json).map Prod.fst := by
    rw [a.map_fst_properties]
    decide
  have hdata : (json.value a.data).map Value.written = json.value a.data := by
    cases hv : json.value a.data with
    | none => rfl
    | some v => rw [Option.map_some, (json.isJson hv).written_eq]
  have hrest : revivedProperties node (writtenProperties (a.properties json)).tail =
      some (writtenProperties (a.properties json)).tail := by
    have hnum : ∀ x : JsNumber, revive node (Value.num x).written = some (Value.num x).written := by
      intro x
      cases x <;> rfl
    have hsome : ∀ {v : Value}, revive node v = some v → ∀ v', some v = some v' →
        revive node v' = some v' := fun hv _ e => Option.some.inj e ▸ hv
    apply revivedProperties_kept
    simp only [writtenProperties, AskData.properties, List.map_cons, List.tail_cons, Option.map_some,
      List.map_nil, List.forall_mem_cons]
    exact ⟨hsome rfl, hsome (hnum _), hsome rfl, hsome rfl, hsome rfl, hsome rfl, hsome rfl,
      hsome (hnum _), hsome rfl, nofun⟩
  have hrevived : revivedProperties node (writtenProperties (a.properties json)) =
      (revivedData node (json.value a.data)).map fun data =>
        ("data", data) :: (writtenProperties (a.properties json)).tail := by
    show ((revivedData node ((json.value a.data).map Value.written)).bind fun v =>
      (revivedProperties node (writtenProperties (a.properties json)).tail).map _) = _
    rw [hdata, hrest]
    cases revivedData node (json.value a.data) <;> rfl
  cases hd : revivedData node (json.value a.data) with
  | none =>
    rw [hd] at hrevived
    rw [readAsk, parseText, hwrites.parse_eq, Option.bind_some, hwrites.value.parsed_json,
      revive_defined (by rwa [map_fst_writtenProperties]) (by rwa [map_fst_writtenProperties]), hrevived]
    rfl
  | some data =>
    rw [hd] at hrevived
    refine hwrites.readAsk_eq hdataType hown hrevived ?_ ?_ ?_ ?_ <;>
      simp [writtenProperties, AskData.properties, Value.written]

end

/-- A combined header with nothing but a UUID. -/
lemma writable_uuid (uuid : Str) :
    Writable (CombinedHeader.mk (some (.str uuid)) none none none none).properties where
  nodup := by
    show ["uuid", "sender_id", "tracker_id", "verification_data", "compression"].Nodup
    decide
  isJson := by
    have hstr : ∀ v, some (Value.str uuid) = some v → IsJson v.written :=
      fun _ e => Option.some.inj e ▸ .str uuid
    simp only [CombinedHeader.properties, Option.map_none, List.forall_mem_cons]
    exact ⟨hstr, nofun, nofun, nofun, nofun, nofun⟩

/-- The text of a combined header with nothing but a UUID is the object with its UUID. -/
lemma parse_stringify (uuid : Str) :
    parse (utf16 (stringifyProperties
      (CombinedHeader.mk (some (.str uuid)) none none none none).properties)) =
      some (.obj [(utf16 "uuid", .str uuid)]) := by
  rw [(writable_uuid uuid).parse_eq]
  rfl

/-! ## Which asks are answered -/

/-- `serde_json` reads an object with nothing but a UUID: the other fields have defaults. -/
def ReadsUuid (fromStr : String → Option HeaderV1) : Prop :=
  ∀ {s} {uuid : Uuid},
    parse (utf16 s) = some (.obj [(utf16 "uuid", .str (utf16 (String.ofList uuid.display)))]) →
      fromStr s = some ⟨uuid, 0, "", "", "", .None⟩

/-- The hash takes keys of 16 to 64 bytes. -/
def HashKeys (crates : Crates) : Prop :=
  ∀ key input, (crates.genericHash key input).isSome ↔ 16 ≤ key.length ∧ key.length ≤ 64

/-- A time that is not after the timeout of an ask. -/
def NoLaterThan (replyTime sendTime : ℤ) (timeout : JsNumber) : Prop :=
  (JsNumber.finite replyTime).le ((JsNumber.finite sendTime).add timeout) = true

/-- It can be decided. -/
instance (replyTime sendTime : ℤ) (timeout : JsNumber) :
    Decidable (NoLaterThan replyTime sendTime timeout) := inferInstanceAs (Decidable (_ = true))

/-- The text is that of an object with this UUID. -/
def CarriesUuid (text : String) (uuid : Uuid) : Prop :=
  ∃ j, parse (utf16 text) = some j ∧
    (parsed j).own (utf16 "UUID") = some (.str (utf16 (String.ofList uuid.display)))

/-- The call returns, and queues one frame for this address: a signed message of this text, with
    this UUID in its header and in the text. -/
def Queues (cfg : Config) (call : Call) (address : SocketAddr) (uuid : Uuid) (text : String) : Prop :=
  call.outcome = .ok () ∧ CarriesUuid text uuid ∧ ∃ q h m, call.channels = [some q] ∧
    q.address = address ∧ h.uuid = uuid ∧
    signedMessage cfg.crates cfg.crypto cfg.keyPair 1 (.V1 h) (utf8 text) = .ok m ∧
    q.data = wrapSerializedMessage m.serialize

section
variable {D : Type*} (node : NodeBuffer) (json : JsonForm D) (asker responder : Endpoint D)
  (resolve : Resolve) (asked : Ask) (uuid : Uuid) (receivedTime replyTime : ℤ) (remote : IpAddr)
  (remoteAddress : String) (data : D) (completeTx : ℕ)

/-- The response to an ask is queued for the asker's port, at the address the ask came from. -/
def Answers : Prop :=
  ∃ call, respond node json responder resolve asked remoteAddress receivedTime data replyTime
      completeTx = some call ∧
    Queues responder.cfg call ⟨remote, UInt16.ofNat (asker.opts.port.toUInt 16)⟩ uuid
      (responder.stringifyResponse json (asked.sendData data receivedTime replyTime))

/-- The header version of the responder is converted to 1, the hash takes its key, and its texts of
    the header and of the data carry the UUID; and the asker's text has been read with its port, and
    with times that the response is not too late for. -/
structure Answerable : Prop where
  version : ∃ q, responder.sendHeaderVersion = .finite q ∧ 1 ≤ q ∧ q < 2
  hashKey : 16 ≤ responder.cfg.crypto.hashKey.length ∧ responder.cfg.crypto.hashKey.length ≤ 64
  header : ∃ h, responder.cfg.fromStr (responder.stringifyHeader asked.combinedHeader) = some h ∧
    h.uuid = uuid
  text : CarriesUuid (responder.stringifyResponse json (asked.sendData data receivedTime replyTime)) uuid
  port : ∃ x, asked.PORT = some (.num x) ∧
    UInt16.ofNat (x.toUInt 16) = UInt16.ofNat (asker.opts.port.toUInt 16)
  inTime : asked.late node replyTime = some false

/-- Neither side has a custom stringifier, and the numbers that are written are doubles. -/
structure PlainTexts (timeout : JsNumber) (sendTime : ℤ) : Prop where
  askerPlain : asker.opts.customStringifier = none
  responderPlain : responder.opts.customStringifier = none
  port : asker.opts.port.IsNumber
  timeout : timeout.IsNumber
  sendTime : JsNumber.IsDouble sendTime
  receivedTime : JsNumber.IsDouble receivedTime
  replyTime : JsNumber.IsDouble replyTime

end

/-- The version that the binding is given is 1. -/
lemma version_eq_one_iff {x : JsNumber} :
    UInt8.ofNat (x.toUInt 8) = 1 ↔ ∃ q, x = .finite q ∧ 1 ≤ q ∧ q < 2 := by
  have hlt := x.toUInt_lt 8
  have hofNat : UInt8.ofNat (x.toUInt 8) = 1 ↔ x.toUInt 8 = 1 := by
    rw [← UInt8.toNat_inj, UInt8.toNat_ofNat', Nat.mod_eq_of_lt hlt]
    rfl
  rw [hofNat, JsNumber.toUInt_eq_iff (by decide) (by decide)]
  norm_num

/-- The UUID in the bytes of a frame with a header. -/
lemma uuid_of_frame {cfg : Config} {h : HeaderV1} {data m}
    (hm : signedMessage cfg.crates cfg.crypto cfg.keyPair 1 (.V1 h) data = .ok m) :
    ((wrapSerializedMessage m.serialize).drop 6).take 16 = h.uuid.bytes := by
  obtain ⟨digest, _, rfl⟩ := (signedMessage_eq_ok _ _ _).mp hm
  -- the mark, the version and the length of the header stand in front
  let header := { h with messageLength := UInt32.ofNat data.length }
  let rest := le 4 header.messageLength.toNat ++ (sized (utf8 h.senderId) ++ (sized (utf8 h.trackerId) ++
    (sized (utf8 h.verificationData) ++ (le 4 h.compression.toU32.toNat ++ (sized data ++
      Sign.serialize ⟨cfg.keyPair.publicKey.bytes, cfg.crates.sign digest cfg.keyPair.secretKey⟩)))))
  have hfront : wrapSerializedMessage (Message.serialize
      { headerVersion := 1
        header := header.serialize
        data := data
        sign := ⟨cfg.keyPair.publicKey.bytes, cfg.crates.sign digest cfg.keyPair.secretKey⟩ }) =
      (1 :: le 1 (1 : UInt8).toNat ++ le 4 header.serialize.length) ++ (h.uuid.bytes ++ rest) := by
    simp only [wrapSerializedMessage, Message.serialize, Message.serializeUnsigned, sized,
      HeaderV1.serialize, List.append_assoc, List.cons_append, rest, header]
  rw [hfront, List.drop_left' (by simp), List.take_left' h.uuid.length_eq]

/-- What a call of `send_with_header` with header version 1 and a header that is read queues. -/
lemma sendWithHeaderFromJs_eq {cfg : Config} {resolve : Resolve} {host header : String} {h : HeaderV1}
    {x version : JsNumber} {remote : IpAddr} (hhash : HashKeys cfg.crates)
    (hkey : 16 ≤ cfg.crypto.hashKey.length ∧ cfg.crypto.hashKey.length ≤ 64)
    (hresolve : ∀ port, resolve host port = some [⟨remote, port⟩])
    (hversion : UInt8.ofNat (version.toUInt 8) = 1) (hparsed : cfg.fromStr header = some h)
    (text : String) (completeTx : ℕ) :
    ∃ m, signedMessage cfg.crates cfg.crypto cfg.keyPair 1 (.V1 h) (utf8 text) = .ok m ∧
      sendWithHeaderFromJs cfg resolve (some (.num x)) host version header text completeTx =
        ⟨1, [some ⟨⟨remote, UInt16.ofNat (x.toUInt 16)⟩, wrapSerializedMessage m.serialize,
          completeTx⟩], true, .ok ()⟩ := by
  obtain ⟨m, hm⟩ : ∃ m, signedMessage cfg.crates cfg.crypto cfg.keyPair 1 (.V1 h) (utf8 text) =
      .ok m := by
    simp only [signedMessage_eq_ok]
    obtain ⟨digest, hdigest⟩ := Option.isSome_iff_exists.mp ((hhash _ _).mpr hkey)
    exact ⟨_, digest, hdigest, rfl⟩
  have hheader : headerFromJsonString cfg.fromStr header 1 = some (.V1 h) := by
    rw [headerFromJsonString, if_pos rfl, HeaderV1.fromJsonString, hparsed, Option.map_some]
  refine ⟨m, hm, ?_⟩
  simp only [sendWithHeaderFromJs, hversion]
  exact sendWithHeader_eq_ok hheader (hresolve _) hm

/-- When the call of a response queues it. -/
lemma queues_iff (port : Option Value) (version : JsNumber) (header text : String) (completeTx : ℕ)
    (uuid : Uuid) (askerPort : UInt16) {cfg : Config} {resolve : Resolve} {host : String}
    {remote : IpAddr} (hhash : HashKeys cfg.crates) (hresolve : ∀ port, resolve host port = some [⟨remote, port⟩]) :
    Queues cfg (sendWithHeaderFromJs cfg resolve port host version header text completeTx)
        ⟨remote, askerPort⟩ uuid text ↔
      (∃ q, version = .finite q ∧ 1 ≤ q ∧ q < 2) ∧
        (16 ≤ cfg.crypto.hashKey.length ∧ cfg.crypto.hashKey.length ≤ 64) ∧
        (∃ h, cfg.fromStr header = some h ∧ h.uuid = uuid) ∧ CarriesUuid text uuid ∧
        ∃ x, port = some (.num x) ∧ UInt16.ofNat (x.toUInt 16) = askerPort := by
  rw [← version_eq_one_iff]
  constructor
  · rintro ⟨hok, htext, q, h, m, hchannels, haddress, huuid, hm, hdata⟩
    obtain ⟨digest, hdigest, _⟩ := (signedMessage_eq_ok _ _ _).mp hm
    have hkey := (hhash _ _).mp (Option.isSome_iff_exists.mpr ⟨digest, hdigest⟩)
    -- the port was a number, or the call would have thrown
    obtain ⟨x, rfl⟩ : ∃ x, port = some (.num x) := by
      unfold sendWithHeaderFromJs at hok
      split at hok
      case h_1 x => exact ⟨x, rfl⟩
      case h_2 => cases hok
    -- and so was the version one
    by_cases hversion : UInt8.ofNat (version.toUInt 8) = 1
    case neg =>
      simp only [sendWithHeaderFromJs, Binding.sendWithHeader, headerFromJsonString, if_neg hversion] at hok
      cases hok
    case pos =>
    cases hparsed : cfg.fromStr header with
    | none =>
      simp only [sendWithHeaderFromJs, Binding.sendWithHeader, headerFromJsonString, if_pos hversion,
        HeaderV1.fromJsonString, hparsed, Option.map_none] at hok
      cases hok
    | some h' =>
      obtain ⟨m', hm', hcall⟩ := sendWithHeaderFromJs_eq (x := x) hhash hkey hresolve hversion hparsed
        text completeTx
      rw [hcall] at hchannels
      cases hchannels
      refine ⟨hversion, hkey, ⟨h', rfl, ?_⟩, htext, x, rfl, congrArg SocketAddr.port haddress⟩
      -- the two headers have the UUID of the same bytes
      have hbytes : h'.uuid.bytes = h.uuid.bytes := by
        rw [← uuid_of_frame hm', ← uuid_of_frame hm]
        exact congrArg (fun b => (b.drop 6).take 16) hdata
      rw [← huuid]
      exact Option.some.inj ((Uuid.fromBytes_eq_some.mpr rfl).symm.trans
        (Uuid.fromBytes_eq_some.mpr hbytes))
  · rintro ⟨hversion, hkey, ⟨h, hparsed, huuid⟩, htext, x, rfl, rfl⟩
    obtain ⟨m, hm, hcall⟩ := sendWithHeaderFromJs_eq (x := x) hhash hkey hresolve hversion hparsed text
      completeTx
    rw [hcall]
    exact ⟨rfl, htext, _, h, m, rfl, rfl, huuid, hm, rfl⟩

/-- A response that is made in time, as the asker counts, is so as the responder counts unless the
    timeout was infinite, which is read as `null` and counts as zero. -/
lemma late_read (node : NodeBuffer) {D : Type*} {a : AskData D} (h : a.Numeric) {replyTime : ℤ}
    (htime : NoLaterThan replyTime a.sendTime a.timeout) :
    a.read.late node replyTime = some false ↔
      (∃ q, a.timeout = .finite q) ∨ replyTime ≤ a.sendTime := by
  cases htimeout : a.timeout with
  | finite q =>
    have hlate : a.read.late node replyTime =
        some (((JsNumber.finite a.sendTime).add (.finite q)).lt (.finite replyTime)) := by
      rw [Ask.late, AskData.read, htimeout]
      rfl
    rw [htimeout, NoLaterThan] at htime
    rw [hlate, JsNumber.lt, htime, Bool.not_true, Bool.and_false]
    exact ⟨fun _ => .inl ⟨q, rfl⟩, fun _ => rfl⟩
  | posInf =>
    have hsum : (JsNumber.finite a.sendTime).add (.finite 0) = .finite a.sendTime := by
      rw [JsNumber.add, add_zero]
      exact h.sendTime
    have hlate : a.read.late node replyTime =
        some ((JsNumber.finite a.sendTime).lt (.finite replyTime)) := by
      rw [← hsum, Ask.late, AskData.read, htimeout]
      rfl
    have hnone : ¬ ∃ q, JsNumber.posInf = .finite q := by
      rintro ⟨q, e⟩
      cases e
    rw [hlate, Option.some_inj, or_iff_right hnone, ← Bool.not_eq_true, JsNumber.finite_lt, Int.cast_lt,
      not_lt]
  | negInf =>
    rw [htimeout] at htime
    cases htime
  | nan =>
    rw [htimeout] at htime
    cases htime

/-- The text of properties carries the UUID among them. -/
lemma Writable.carriesUuid {ps : List (String × Option Value)} (h : Writable ps) {uuid : Uuid}
    (huuid : ("UUID", some (.str (utf16 (String.ofList uuid.display)))) ∈ ps) :
    CarriesUuid (stringifyProperties ps) uuid := by
  refine ⟨_, h.parse_eq, ?_⟩
  have hnodup : ((writtenProperties ps).map Prod.fst).Nodup := by
    rw [map_fst_writtenProperties]
    exact h.nodup
  rw [h.value.parsed_json]
  exact get_defined hnodup (List.mem_map.mpr ⟨_, huuid, rfl⟩)

section
variable {D : Type*} {node : NodeBuffer} {json : JsonForm D} {asker responder : Endpoint D}
  {resolve : Resolve} {timeout : JsNumber} {sendTime receivedTime replyTime : ℤ}

/-- The properties of a response to an ask that `JSON.stringify` has written. -/
lemma AskData.Numeric.writable_response {a : AskData D} (h : a.Numeric) (json : JsonForm D)
    (hreceived : JsNumber.IsDouble receivedTime) (hreply : JsNumber.IsDouble replyTime) (data : D) :
    Writable ((a.read.sendData data receivedTime replyTime).properties json) where
  nodup := by
    show ["data", "UUID", "PORT", "ADDRESS", "sendTime", "receivedTime", "replyTime",
      "replyReceivedTime", "msgDir"].Nodup
    decide
  isJson := by
    have hsome : ∀ {v : Value}, IsJson v.written → ∀ v', some v = some v' → IsJson v'.written :=
      fun hv _ e => Option.some.inj e ▸ hv
    have hport : IsJson (Value.num a.PORT).written.written := by
      rw [(isJson_written_num h.PORT).written_eq]
      exact isJson_written_num h.PORT
    have hzero : IsJson (Value.num (.finite 0)) := .num (by decide +kernel)
    simp only [ResponseData.properties, List.forall_mem_cons]
    exact ⟨fun _ => json.isJson_written, hsome (.str _), hsome hport, nofun, hsome (.num h.sendTime),
      hsome (.num hreceived), hsome (.num hreply), hsome hzero, hsome (.str _), nofun⟩

/-- Which asks are answerable when `JSON.stringify` writes all texts. -/
lemma answerable_iff (hserde : ReadsUuid responder.cfg.fromStr)
    (hplain : PlainTexts asker responder receivedTime replyTime timeout sendTime)
    (htime : NoLaterThan replyTime sendTime timeout) {uuid : Uuid} {asked : Ask} {question : D}
    (hread : readAsk node (asker.stringifyAsk json (asker.ask uuid timeout sendTime question)) =
      some asked) (data : D) :
    Answerable node json asker responder asked uuid receivedTime replyTime data ↔
      (∃ q, responder.sendHeaderVersion = .finite q ∧ 1 ≤ q ∧ q < 2) ∧
        (16 ≤ responder.cfg.crypto.hashKey.length ∧ responder.cfg.crypto.hashKey.length ≤ 64) ∧
        (∃ q, asker.opts.port = .finite q) ∧
        ((∃ q, timeout = .finite q) ∨ replyTime ≤ sendTime) := by
  let a := asker.ask uuid timeout sendTime question
  have ha : a.Numeric := ⟨hplain.port, hplain.sendTime, hplain.timeout⟩
  have hasked : asked = a.read := by
    have htext : asker.stringifyAsk json a = stringifyProperties (a.properties json) := by
      rw [Endpoint.stringifyAsk, hplain.askerPlain]
      rfl
    rw [htext, readAsk_stringify json node ha] at hread
    obtain ⟨_, _, e⟩ := Option.map_eq_some_iff.mp hread
    exact e.symm
  have hheader : ∃ h, responder.cfg.fromStr (responder.stringifyHeader asked.combinedHeader) = some h ∧
      h.uuid = uuid := by
    refine ⟨_, hserde ?_, rfl⟩
    rw [Endpoint.stringifyHeader, hplain.responderPlain, hasked]
    exact parse_stringify _
  have htext : CarriesUuid (responder.stringifyResponse json
      (asked.sendData data receivedTime replyTime)) uuid := by
    rw [Endpoint.stringifyResponse, hplain.responderPlain, hasked]
    exact (ha.writable_response json hplain.receivedTime hplain.replyTime data).carriesUuid
      (List.mem_cons_of_mem _ List.mem_cons_self)
  have hport : (∃ x, asked.PORT = some (.num x) ∧
      UInt16.ofNat (x.toUInt 16) = UInt16.ofNat (asker.opts.port.toUInt 16)) ↔
        ∃ q, asker.opts.port = .finite q := by
    rw [hasked]
    show (∃ x, some (Value.num asker.opts.port).written = some (.num x) ∧ _) ↔ _
    cases asker.opts.port with
    | finite q => exact ⟨fun _ => ⟨q, rfl⟩, fun _ => ⟨.finite q, rfl, rfl⟩⟩
    | _ => exact ⟨fun ⟨_, e, _⟩ => (by cases e), nofun⟩
  have hlate : asked.late node replyTime = some false ↔
      (∃ q, timeout = .finite q) ∨ replyTime ≤ sendTime := by
    rw [hasked]
    exact late_read node ha htime
  constructor
  · intro h
    exact ⟨h.version, h.hashKey, hport.mp h.port, hlate.mp h.inTime⟩
  · rintro ⟨hversion, hkey, hfinite, hinTime⟩
    exact ⟨hversion, hkey, hheader, htext, hport.mpr hfinite, hlate.mpr hinTime⟩

/-- A response is queued, for the asker's port at the address the ask came from and under the UUID
    of the ask, exactly when the ask, as it was read, and the options of both sides allow it
    (`Answerable`). Without custom stringifiers this is a matter of the responder's header version
    and hash key, and of the asker's port and timeout. -/
theorem respond_answers_iff (hserde : ReadsUuid responder.cfg.fromStr)
    (hhash : HashKeys responder.cfg.crates) {remote : IpAddr} {remoteAddress : String}
    (hresolve : ∀ port, resolve remoteAddress port = some [⟨remote, port⟩]) {uuid : Uuid} {asked : Ask}
    {question : D}
    (hread : readAsk node (asker.stringifyAsk json (asker.ask uuid timeout sendTime question)) =
      some asked) (data : D) (completeTx : ℕ) :
    (Answers node json asker responder resolve asked uuid receivedTime replyTime remote remoteAddress
        data completeTx ↔
      Answerable node json asker responder asked uuid receivedTime replyTime data) ∧
    (PlainTexts asker responder receivedTime replyTime timeout sendTime →
      NoLaterThan replyTime sendTime timeout →
      (Answerable node json asker responder asked uuid receivedTime replyTime data ↔
        (∃ q, responder.sendHeaderVersion = .finite q ∧ 1 ≤ q ∧ q < 2) ∧
          (16 ≤ responder.cfg.crypto.hashKey.length ∧ responder.cfg.crypto.hashKey.length ≤ 64) ∧
          (∃ q, asker.opts.port = .finite q) ∧
          ((∃ q, timeout = .finite q) ∨ replyTime ≤ sendTime))) := by
  refine ⟨?_, fun hplain htime => answerable_iff hserde hplain htime hread data⟩
  have hqueues := queues_iff asked.PORT responder.sendHeaderVersion
    (responder.stringifyHeader asked.combinedHeader)
    (responder.stringifyResponse json (asked.sendData data receivedTime replyTime)) completeTx uuid
    (UInt16.ofNat (asker.opts.port.toUInt 16)) hhash hresolve
  constructor
  · rintro ⟨call, hcall, hq⟩
    unfold respond at hcall
    split at hcall
    case h_1 hinTime =>
      cases hcall
      obtain ⟨hversion, hkey, hheader, htext, hport⟩ := hqueues.mp hq
      exact ⟨hversion, hkey, hheader, htext, hport, hinTime⟩
    case h_2 => cases hcall
  · intro h
    refine ⟨_, ?_, hqueues.mpr ⟨h.version, h.hashKey, h.header, h.text, h.port⟩⟩
    rw [respond, h.inTime]

end

/-! ## Responses of a running instance -/

/-- What `respond` reads of an ask that an instance has received. -/
def AugmentedData.ask {D : Type*} (augData : AugmentedData D) : Ask where
  UUID := some (.str (utf16 augData.UUID))
  PORT := some (.num (.finite augData.PORT))
  sendTime := some (.num (.finite augData.sendTime))
  timeout := augData.timeout.map fun t : ℤ => .num (.finite t)

/-- A running instance compares integers: it judges a response as JavaScript does when the sum of the
    times is exact. -/
lemma AugmentedData.late_ask {D : Type*} (node : NodeBuffer) (augData : AugmentedData D)
    (hsum : ∀ t, augData.timeout = some t → JsNumber.IsDouble (augData.sendTime + t : ℤ))
    (replyTime : ℤ) :
    augData.ask.late node replyTime =
      some (match augData.timeout with
        | some timeout => decide (replyTime > augData.sendTime + timeout)
        | none => false) := by
  cases htimeout : augData.timeout with
  | none =>
    rw [Ask.late, AugmentedData.ask, htimeout]
    rfl
  | some timeout =>
    have hadd : (JsNumber.finite augData.sendTime).add (.finite timeout) =
        .finite (augData.sendTime + timeout : ℤ) := by
      rw [JsNumber.add, ← Int.cast_add]
      exact hsum timeout htimeout
    have hlate : augData.ask.late node replyTime =
        some (((JsNumber.finite augData.sendTime).add (.finite timeout)).lt (.finite replyTime)) := by
      rw [Ask.late, AugmentedData.ask, htimeout]
      rfl
    rw [hlate, hadd, Option.some_inj, Bool.eq_iff_iff, JsNumber.finite_lt, Int.cast_lt, decide_eq_true_iff]

/-- A running instance has sent a response exactly when the binding was called and has returned. -/
lemma Sn.sent_respond {D H : Type*} (s : Sn D H) (node : NodeBuffer) (json : JsonForm D)
    (responder : Endpoint D) (resolve : Resolve) {augData : AugmentedData D}
    (hsum : ∀ t, augData.timeout = some t → JsNumber.IsDouble (augData.sendTime + t : ℤ))
    (remote : RemoteSender) (receivedTime replyTime : ℤ) (data : D) (completeTx : ℕ) {accepted : Bool}
    (haccepted : ∀ call, Node.respond node json responder resolve augData.ask remote.address receivedTime
      data replyTime completeTx = some call → (accepted ↔ call.outcome = .ok ())) :
    (s.respond augData remote receivedTime data ⟨replyTime, true, accepted⟩).sent ≠ s.sent ↔
      ∃ call, Node.respond node json responder resolve augData.ask remote.address receivedTime data
        replyTime completeTx = some call ∧ call.outcome = .ok () := by
  obtain ⟨late, hlate, hrespond⟩ : ∃ late : Bool, augData.ask.late node replyTime = some late ∧
      s.respond augData remote receivedTime data ⟨replyTime, true, accepted⟩ =
        if late then s
        else
          s.sendAug [(augData.PORT, remote.address)] true
            ⟨data, augData.UUID, augData.PORT, none, augData.sendTime, receivedTime, replyTime, 0, none,
              .resp⟩ 0 ⟨replyTime, true, accepted⟩ :=
    ⟨_, augData.late_ask node hsum replyTime, rfl⟩
  unfold Node.respond at haccepted ⊢
  rw [hlate] at haccepted ⊢
  rw [hrespond]
  cases late with
  | true => simp only [if_true, ne_eq, not_true, reduceCtorEq, false_and, exists_false]
  | false =>
    simp only [Option.some.injEq, forall_eq'] at haccepted
    simp only [Bool.false_eq_true, if_false, Option.some.injEq, exists_eq_left', ← haccepted]
    cases accepted with
    | false => simp [Sn.sendAug]
    | true => simp [Sn.sendAug]

/-! ## Two instances -/

/-- A stand-in for what `serde_json` derives, on objects with nothing but a UUID. -/
def standInReadUuid (s : String) : Option HeaderV1 :=
  match parse (utf16 s) with
  | some (.obj [(name, .str u)]) =>
    if name = utf16 "uuid" then do
      let uuid ← ofUnits u
      let uuid ← Uuid.ofDisplay uuid.toList
      some ⟨uuid, 0, "", "", "", .None⟩
    else none
  | _ => none

/-- It reads them. -/
lemma readsUuid_standIn : ReadsUuid standInReadUuid := by
  intro s uuid hparse
  rw [standInReadUuid, hparse]
  simp only [if_true, Option.bind_eq_bind, ofUnits_utf16, Option.bind_some, String.toList_ofList,
    Uuid.ofDisplay_display]

/-- The stand-in crates take keys of 16 to 64 bytes. -/
lemma hashKeys_standIn (genuine : PublicKey → Bytes → Bool) : HashKeys (standIn genuine) := by
  intro key input
  simp only [standIn, Option.isSome_ite]

/-- The key pair in the options of an instance. -/
lemma getKeyPairUsingSk_encode :
    ShardusCrypto.getKeyPairUsingSk (standIn fun _ _ => true)
      (.hex (String.ofList (Hex.encode (List.replicate 64 7)))) = .ok standInKeyPair := by
  have hdecode : hexDecode (String.ofList (Hex.encode (List.replicate 64 7))) =
      some (List.replicate 64 7) := by
    rw [hexDecode, String.toList_ofList, Hex.decode_encode]
  have hkey : SecretKey.fromSlice (List.replicate 64 7) = some standInKeyPair.secretKey := rfl
  simp only [ShardusCrypto.getKeyPairUsingSk, hdecode, expect, hkey, bind, Except.bind, pure,
    Except.pure]
  rfl

/-- Data that are strings. -/
def stringForm : JsonForm String where
  value s := some (.str (utf16 s))
  isJson h := Option.some.inj h ▸ .str _

/-- A stringifier that writes the properties the other way round. -/
def reversingStringifier : Stringifier String where
  ask a := stringifyProperties (a.properties stringForm).reverse
  header h := stringifyProperties h.properties.reverse
  response r := stringifyProperties (r.properties stringForm).reverse

/-- An instance with these header options and this stringifier. -/
def sampleEndpoint (headerOpts : Option JsNumber) (customStringifier : Option (Stringifier String)) :
    Endpoint String where
  opts :=
    { port := .finite 9001
      address := none
      senderOpts := none
      headerOpts := headerOpts
      customStringifier := customStringifier
      crypto := ⟨"64f152869ca2d473e4ba64ab53f49ccdb2edae22da192c126850970e788af347",
        String.ofList (Hex.encode (List.replicate 64 7))⟩ }
  cfg :=
    { crates := standIn fun _ _ => true
      crypto := ⟨List.replicate 32 0x64⟩
      keyPair := standInKeyPair
      fromStr := standInReadUuid }
  valid := rfl
  created := getKeyPairUsingSk_encode

/-- An ask of it. -/
def writtenAsk : AskData String :=
  (sampleEndpoint none none).ask .nil (.finite 1000) 0 "question"

/-- A resolver for one address. -/
def loopbackResolve : Resolve := fun _ port => some [⟨.V4 0x7f000001#32, port⟩]

/-- Its numbers are JavaScript numbers. -/
lemma writtenAsk_numeric : writtenAsk.Numeric where
  PORT q h := by
    cases h
    decide +kernel
  sendTime := by decide +kernel
  timeout q h := by
    cases h
    decide +kernel

/-- Properties may be written in any order. -/
lemma Writable.reverse {ps : List (String × Option Value)} (h : Writable ps) : Writable ps.reverse where
  nodup := by
    rw [List.map_reverse, List.nodup_reverse]
    exact h.nodup
  isJson p hp := h.isJson p (List.mem_reverse.mp hp)

/-- What is read of the ask that the stringifier has written. -/
lemma readAsk_reversing : readAsk asciiBuffer (reversingStringifier.ask writtenAsk) = some writtenAsk.read := by
  have hnames : (writtenAsk.properties stringForm).reverse.map Prod.fst = ["msgDir", "timeout",
      "replyReceivedTime", "replyTime", "receivedTime", "sendTime", "ADDRESS", "PORT", "UUID", "data"] :=
    rfl
  refine (writtenAsk.writable stringForm writtenAsk_numeric).reverse.readAsk_eq ?_ ?_
    (revivedProperties_kept ?_) ?_ ?_ ?_ ?_
  · rw [hnames]
    decide
  · rw [hnames]
    decide
  · -- all properties are strings and numbers
    have hsome : ∀ {v : Value}, revive asciiBuffer v = some v → ∀ v', some v = some v' →
        revive asciiBuffer v' = some v' := fun hv _ e => Option.some.inj e ▸ hv
    show ∀ p ∈ (writtenProperties (writtenAsk.properties stringForm).reverse), _
    simp only [writtenProperties, AskData.properties, List.reverse_cons, List.reverse_nil, List.nil_append,
      List.cons_append, List.map_cons, List.map_nil, Option.map_some, List.forall_mem_cons]
    exact ⟨hsome rfl, hsome rfl, hsome rfl, hsome rfl, hsome rfl, hsome rfl, hsome rfl, hsome rfl,
      hsome rfl, hsome rfl, nofun⟩
  all_goals simp [writtenProperties, AskData.properties, Value.written, writtenAsk, Endpoint.ask,
    sampleEndpoint]

/-- Two instances of which one has header version 1: its answer to an ask of the other is queued, with
    stringifiers of their own and without. -/
theorem respond_answers_versionOne :
    Answers asciiBuffer stringForm (sampleEndpoint none (some reversingStringifier))
        (sampleEndpoint (some (.finite 1)) (some reversingStringifier)) loopbackResolve writtenAsk.read
        .nil 5 10 (.V4 0x7f000001#32) "127.0.0.1" "answer" 0 ∧
      Answers asciiBuffer stringForm (sampleEndpoint none none) (sampleEndpoint (some (.finite 1)) none)
        loopbackResolve writtenAsk.read .nil 5 10 (.V4 0x7f000001#32) "127.0.0.1" "answer" 0 := by
  have htime : NoLaterThan 10 0 (.finite 1000) := by decide +kernel
  have hread : readAsk asciiBuffer ((sampleEndpoint none (some reversingStringifier)).stringifyAsk
      stringForm ((sampleEndpoint none (some reversingStringifier)).ask .nil (.finite 1000) 0 "question")) =
        some writtenAsk.read := readAsk_reversing
  have hreceived : JsNumber.IsDouble (5 : ℤ) := by decide +kernel
  have hreply : JsNumber.IsDouble (10 : ℤ) := by decide +kernel
  have hwrites := writtenAsk_numeric.writable_response stringForm hreceived hreply "answer"
  have hheader : ∃ h, (sampleEndpoint (some (.finite 1)) (some reversingStringifier)).cfg.fromStr
      ((sampleEndpoint (some (.finite 1)) (some reversingStringifier)).stringifyHeader
        writtenAsk.read.combinedHeader) = some h ∧ h.uuid = .nil := by
    have hfromStr : (sampleEndpoint (some (.finite 1)) (some reversingStringifier)).cfg.fromStr =
        standInReadUuid := rfl
    have hstringify : (sampleEndpoint (some (.finite 1)) (some reversingStringifier)).stringifyHeader
        writtenAsk.read.combinedHeader =
          stringifyProperties writtenAsk.read.combinedHeader.properties := by
      have hreverse : defined writtenAsk.read.combinedHeader.properties.reverse =
          defined writtenAsk.read.combinedHeader.properties := rfl
      exact congrArg (fun ms => ofUtf16 (stringify (.obj ms))) hreverse
    rw [hfromStr, hstringify]
    exact ⟨_, readsUuid_standIn (parse_stringify _), rfl⟩
  have htext : CarriesUuid (reversingStringifier.response (writtenAsk.read.sendData "answer" 5 10)) .nil :=
    hwrites.reverse.carriesUuid (List.mem_reverse.mpr (List.mem_cons_of_mem _ List.mem_cons_self))
  have hinTime : writtenAsk.read.late asciiBuffer 10 = some false :=
    (late_read asciiBuffer writtenAsk_numeric htime).mpr (.inl ⟨1000, rfl⟩)
  have hhash : ∀ customStringifier,
      HashKeys (sampleEndpoint (some (.finite 1)) customStringifier).cfg.crates :=
    fun _ => hashKeys_standIn fun _ _ => true
  have hplainRead : readAsk asciiBuffer ((sampleEndpoint none none).stringifyAsk stringForm
      ((sampleEndpoint none none).ask .nil (.finite 1000) 0 "question")) = some writtenAsk.read :=
    readAsk_stringify stringForm asciiBuffer writtenAsk_numeric
  have hplain : PlainTexts (sampleEndpoint none none) (sampleEndpoint (some (.finite 1)) none) 5 10
      (.finite 1000) 0 :=
    ⟨rfl, rfl, writtenAsk_numeric.PORT, writtenAsk_numeric.timeout, writtenAsk_numeric.sendTime,
      hreceived, hreply⟩
  have hresolve : ∀ port, loopbackResolve "127.0.0.1" port = some [⟨.V4 0x7f000001#32, port⟩] :=
    fun _ => rfl
  constructor
  · exact (respond_answers_iff readsUuid_standIn (hhash _) hresolve hread "answer" 0).1.mpr
      { version := ⟨1, rfl, by norm_num, by norm_num⟩
        hashKey := by decide
        header := hheader
        text := htext
        port := ⟨.finite 9001, rfl, rfl⟩
        inTime := hinTime }
  · obtain ⟨hanswers, hanswerable⟩ := respond_answers_iff readsUuid_standIn (hhash none) hresolve
      hplainRead "answer" 0
    exact hanswers.mpr ((hanswerable hplain htime).mpr ⟨⟨1, rfl, by norm_num, by norm_num⟩, by decide,
      ⟨9001, rfl⟩, .inl ⟨1000, rfl⟩⟩)

/-- With the default options the call of a response throws, and queues nothing. -/
theorem respond_fails_defaultOptions :
    readAsk asciiBuffer ((sampleEndpoint none none).stringifyAsk stringForm writtenAsk) =
        some writtenAsk.read ∧
      NoLaterThan 10 0 (.finite 1000) ∧
      respond asciiBuffer stringForm (sampleEndpoint none none) loopbackResolve writtenAsk.read "127.0.0.1"
          5 "answer" 10 0 =
        some ⟨1, [], true, .error (.error "Failed to parse header")⟩ ∧
      ¬ Answers asciiBuffer stringForm (sampleEndpoint none none) (sampleEndpoint none none)
        loopbackResolve writtenAsk.read .nil 5 10 (.V4 0x7f000001#32) "127.0.0.1" "answer" 0 := by
  have htime : NoLaterThan 10 0 (.finite 1000) := by decide +kernel
  have hlate : writtenAsk.read.late asciiBuffer 10 = some false :=
    (late_read asciiBuffer writtenAsk_numeric htime).mpr (.inl ⟨1000, rfl⟩)
  have hcall : respond asciiBuffer stringForm (sampleEndpoint none none) loopbackResolve writtenAsk.read
      "127.0.0.1" 5 "answer" 10 0 = some ⟨1, [], true, .error (.error "Failed to parse header")⟩ := by
    rw [respond, hlate]
    rfl
  refine ⟨?_, htime, hcall, ?_⟩
  · exact readAsk_stringify stringForm asciiBuffer writtenAsk_numeric
  · rintro ⟨call, hsome, hok, _⟩
    rw [hcall] at hsome
    cases hsome
    cases hok

end ShardusNet.Node
