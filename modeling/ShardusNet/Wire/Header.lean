import ShardusNet.Wire.Crypto
/-!
# Headers

Port of `shardus_net/src/header/header_v1.rs`, `header/header_types.rs`, `compression.rs` and
`header_factory.rs`: the header of a signed message, its byte codec and its JSON text.

* `HeaderV1.serialize`/`HeaderV1.deserialize`, exact by `HeaderV1.deserialize_eq_some` on headers
  whose strings fit their `u32` lengths; `HeaderV1.headerV1_exact` reads this at a position of any
  byte string.
* `HeaderV1.toJsonString`: the text the receiving application is given.
* `headerSerializeFactory`, `headerDeserializeFactory`: dispatch on the version byte; only version 1
  exists.

`ENABLE_COMPRESSION` is a constant of `lib.rs` and off; `compress` and `decompress` keep both
branches.
-/

namespace ShardusNet.Wire
open ByteCodec

/-- `ENABLE_COMPRESSION`. -/
def ENABLE_COMPRESSION : Bool := false

/-- `HEADER_SIZE_LIMIT_IN_BYTES`. -/
def HEADER_SIZE_LIMIT_IN_BYTES : ℕ := 2 * 2048

/-! ## Compression -/

/-- `Compression`. -/
inductive Compression where
  | None
  | Gzip
  | Brotli
  deriving DecidableEq, Repr

namespace Compression

/-- `Compression::from_u32`. -/
def fromU32 (val : UInt32) : Option Compression :=
  if val = 0 then some .None
  else if val = 1 then some .Gzip
  else if val = 2 then some .Brotli
  else none

/-- `Compression::to_u32`. -/
def toU32 : Compression → UInt32
  | .None => 0
  | .Gzip => 1
  | .Brotli => 2

/-- `Compression::compress`. -/
def compress (crates : Crates) (data : Bytes) : Compression → Bytes
  | .None => data
  | .Gzip => crates.gzEncode data
  | .Brotli => crates.brotliEncode data

/-- `Compression::decompress`. -/
def decompress (crates : Crates) (data : Bytes) : Compression → Option Bytes
  | .None => some data
  | .Gzip => crates.gzDecode data
  | .Brotli => crates.brotliDecode data

/-- A tag is read exactly when it is the tag of the result. -/
lemma fromU32_eq_some {val c} : fromU32 val = some c ↔ val = c.toU32 := by
  unfold fromU32
  constructor
  · intro h
    split at h
    case isTrue h0 => cases h; exact h0
    case isFalse =>
      split at h
      case isTrue h1 => cases h; exact h1
      case isFalse =>
        split at h
        case isTrue h2 => cases h; exact h2
        case isFalse => cases h
  · rintro rfl
    cases c <;> rfl

end Compression

/-! ## Header version 1 -/

/-- `Uuid`: 16 bytes. -/
structure Uuid where
  bytes : Bytes
  /-- A UUID has 16 bytes. -/
  length_eq : bytes.length = 16
  deriving DecidableEq

/-- `Uuid::nil`. -/
def Uuid.nil : Uuid := ⟨List.replicate 16 0, rfl⟩

/-- `Uuid::from_bytes`. -/
def Uuid.fromBytes (b : Bytes) : Option Uuid :=
  if h : b.length = 16 then some ⟨b, h⟩ else none

/-- `Uuid` as displayed: lower-case digits in groups of 8, 4, 4, 4 and 12. -/
def Uuid.display (u : Uuid) : List Char :=
  Hex.encode (u.bytes.take 4) ++ '-' :: Hex.encode ((u.bytes.drop 4).take 2) ++
    '-' :: Hex.encode ((u.bytes.drop 6).take 2) ++ '-' :: Hex.encode ((u.bytes.drop 8).take 2) ++
    '-' :: Hex.encode (u.bytes.drop 10)

/-- `from_bytes` gives the UUID with these bytes. -/
lemma Uuid.fromBytes_eq_some {b u} : Uuid.fromBytes b = some u ↔ b = u.bytes := by
  unfold Uuid.fromBytes
  constructor
  · intro h
    split at h
    case isTrue => cases h; rfl
    case isFalse => cases h
  · rintro rfl
    rw [dif_pos u.length_eq]

/-- `HeaderV1`. -/
structure HeaderV1 where
  uuid : Uuid
  messageLength : UInt32
  senderId : String
  trackerId : String
  verificationData : String
  compression : Compression
  deriving DecidableEq

/-- A string behind the four-byte length of its UTF-8 bytes, as `deserialize` reads it. -/
def readString (cursor : Bytes) : Option (String × Bytes) := do
  let (bytes, cursor) ← readSized cursor
  let s ← fromUtf8 bytes
  some (s, cursor)

/-- `readString` succeeds exactly on inputs with an encoded string in front. -/
lemma readString_eq_some {c s r} :
    readString c = some (s, r) ↔ (utf8 s).length < 2 ^ 32 ∧ c = sized (utf8 s) ++ r := by
  simp only [readString, Option.bind_eq_bind, Option.bind_eq_some_iff, Prod.exists, readSized_eq_some,
    fromUtf8_eq_some]
  constructor
  · rintro ⟨bytes, c', ⟨hb, rfl⟩, t, rfl, e⟩
    cases e
    exact ⟨hb, rfl⟩
  · rintro ⟨hb, rfl⟩
    exact ⟨utf8 s, r, ⟨hb, rfl⟩, s, rfl, rfl⟩

namespace HeaderV1

/-- `HeaderV1::serialize`. -/
def serialize (h : HeaderV1) : Bytes :=
  h.uuid.bytes ++ le 4 h.messageLength.toNat ++ sized (utf8 h.senderId) ++ sized (utf8 h.trackerId) ++
    sized (utf8 h.verificationData) ++ le 4 h.compression.toU32.toNat

/-- `HeaderV1::deserialize`. -/
def deserialize (cursor : Bytes) : Option (HeaderV1 × Bytes) := do
  let (uuidBytes, cursor) ← readExact 16 cursor
  let uuid ← Uuid.fromBytes uuidBytes
  let (messageLength, cursor) ← readLe 4 cursor
  let (senderId, cursor) ← readString cursor
  let (trackerId, cursor) ← readString cursor
  let (verificationData, cursor) ← readString cursor
  let (tag, cursor) ← readLe 4 cursor
  let compression ← Compression.fromU32 (UInt32.ofNat tag)
  some (⟨uuid, UInt32.ofNat messageLength, senderId, trackerId, verificationData, compression⟩,
    cursor)

/-- `HeaderV1::to_json_string`. -/
def toJsonString (h : HeaderV1) : String :=
  "\x7b\"uuid\": \"" ++ String.ofList h.uuid.display ++
    "\", \"message_length\": " ++ toString h.messageLength.toNat ++
    ", \"sender_id\": \"" ++ h.senderId ++ "\", \"tracker_id\": \"" ++ h.trackerId ++
    "\", \"verification_data\": \"" ++ h.verificationData ++ "\"\x7d"

/-- `HeaderV1::validate`. -/
def validate (h : HeaderV1) (message : Bytes) : Bool :=
  message.length == h.messageLength.toNat

/-- Every string fits its `u32` length. -/
structure Fits (h : HeaderV1) : Prop where
  senderId : (utf8 h.senderId).length < 2 ^ 32
  trackerId : (utf8 h.trackerId).length < 2 ^ 32
  verificationData : (utf8 h.verificationData).length < 2 ^ 32

/-- `Fits` says that the three strings of a header are short enough. -/
lemma fits_iff {h : HeaderV1} :
    h.Fits ↔ (utf8 h.senderId).length < 2 ^ 32 ∧ (utf8 h.trackerId).length < 2 ^ 32 ∧
      (utf8 h.verificationData).length < 2 ^ 32 := by
  constructor
  · intro hf
    exact ⟨hf.senderId, hf.trackerId, hf.verificationData⟩
  · intro ⟨hs, ht, hv⟩
    exact ⟨hs, ht, hv⟩

/-- A number below `2 ^ 32` is a `u32`. -/
lemma toNat_ofNat_of_lt {v} (hv : v < 256 ^ 4) : (UInt32.ofNat v).toNat = v := by
  simp only [UInt32.toNat_ofNat']
  omega

/-- `deserialize` succeeds exactly on serialized headers, with any bytes after them. -/
lemma deserialize_eq_some {c h r} :
    deserialize c = some (h, r) ↔ h.Fits ∧ c = h.serialize ++ r := by
  simp only [deserialize, Option.bind_eq_bind, Option.bind_eq_some_iff, Prod.exists,
    readExact_eq_some, readLe_eq_some, readString_eq_some, Uuid.fromBytes_eq_some,
    Compression.fromU32_eq_some, serialize, List.append_assoc]
  constructor
  · rintro ⟨u, c₁, ⟨_, rfl⟩, uuid, rfl, n, c₂, ⟨hn, rfl⟩, s, c₃, ⟨hs, rfl⟩, t, c₄, ⟨ht, rfl⟩, v, c₅,
      ⟨hv, rfl⟩, tag, c₆, ⟨htag, rfl⟩, compression, ec, e⟩
    cases e
    refine ⟨⟨hs, ht, hv⟩, ?_⟩
    rw [toNat_ofNat_of_lt hn, ← ec, toNat_ofNat_of_lt htag]
  · rintro ⟨⟨hs, ht, hv⟩, rfl⟩
    refine ⟨h.uuid.bytes, _, ⟨h.uuid.length_eq, rfl⟩, h.uuid, rfl, h.messageLength.toNat, _,
      ⟨h.messageLength.toNat_lt, rfl⟩, h.senderId, _, ⟨hs, rfl⟩, h.trackerId, _, ⟨ht, rfl⟩,
      h.verificationData, _, ⟨hv, rfl⟩, h.compression.toU32.toNat, r,
      ⟨h.compression.toU32.toNat_lt, rfl⟩, h.compression, ?_, ?_⟩ <;> simp

/-- A header is read exactly from its own bytes. -/
lemma exact : Exact deserialize serialize Fits := fun _ _ _ => deserialize_eq_some

/-- On a byte string `b`, `deserialize` returns `h` and stops at position `n` exactly where the
    first `n` bytes are the encoding of `h` and the strings of `h` fit their lengths; so every
    header that fits survives the trip whatever follows, and every other input is refused. -/
theorem headerV1_exact (b : Bytes) :
    (∀ n h, (∃ cursor, deserialize b = some (h, cursor) ∧ CursorAt b n cursor) ↔
      n ≤ b.length ∧ b.take n = h.serialize ∧ (utf8 h.senderId).length < 2 ^ 32 ∧
        (utf8 h.trackerId).length < 2 ^ 32 ∧ (utf8 h.verificationData).length < 2 ^ 32) ∧
      (∀ h, h.Fits → deserialize (h.serialize ++ b) = some (h, b)) ∧
      (deserialize b = none ↔
        ∀ n (h : HeaderV1), n ≤ b.length → b.take n = h.serialize → ¬ h.Fits) := by
  refine ⟨?_, ?_, exact.refuses⟩
  · intro n h
    rw [exact.decodes_at, fits_iff]
  · intro h hf
    exact deserialize_eq_some.mpr ⟨hf, rfl⟩

/-- The length of a serialized header depends on its strings alone. -/
lemma length_serialize (h : HeaderV1) :
    h.serialize.length = 36 + (utf8 h.senderId).length + (utf8 h.trackerId).length +
      (utf8 h.verificationData).length := by
  simp only [serialize, List.length_append, length_le, length_sized, h.uuid.length_eq]
  omega

/-- A header within the size limit fits its lengths. -/
lemma fits_of_length_le {h : HeaderV1} (hl : h.serialize.length ≤ HEADER_SIZE_LIMIT_IN_BYTES) :
    h.Fits := by
  rw [length_serialize, HEADER_SIZE_LIMIT_IN_BYTES] at hl
  constructor <;> omega

end HeaderV1

/-! ## Headers of any version -/

/-- `Header`. -/
inductive Header where
  | V1 (header : HeaderV1)
  deriving DecidableEq

namespace Header
variable (crates : Crates)

/-- `Header::to_json_string`. -/
def toJsonString : Header → String
  | .V1 h => h.toJsonString

/-- `Header::validate`. -/
def validate (message : Bytes) : Header → Bool
  | .V1 h => h.validate message

/-- `Header::set_message_length`. -/
def setMessageLength (messageLength : UInt32) : Header → Header
  | .V1 h => .V1 { h with messageLength }

/-- `Header::compress`. -/
def compress (h : Header) (message : Bytes) : Bytes :=
  if !ENABLE_COMPRESSION then message
  else match h with
    | .V1 h => h.compression.compress crates message

/-- `Header::decompress`. -/
def decompress (h : Header) (message : Bytes) : Option Bytes :=
  if !ENABLE_COMPRESSION then some message
  else match h with
    | .V1 h => h.compression.decompress crates message

/-- A message is not compressed. -/
@[simp] lemma compress_eq (h : Header) (message) : h.compress crates message = message := rfl

/-- A message is not decompressed. -/
@[simp] lemma decompress_eq (h : Header) (message) : h.decompress crates message = some message := rfl

end Header

/-- `header_deserialize_factory`. -/
def headerDeserializeFactory (version : UInt8) (cursor : Bytes) : Option (Header × Bytes) :=
  if version = 1 then (HeaderV1.deserialize cursor).map fun (h, cursor) => (.V1 h, cursor) else none

/-- `header_serialize_factory`. -/
def headerSerializeFactory (headerVersion : UInt8) (header : Header) : Option Bytes :=
  if headerVersion = 1 then
    match header with
    | .V1 h => some h.serialize
  else none

/-- `wrap_serialized_message`: the byte 1 says that the header system is in use. -/
def wrapSerializedMessage (serializedMessage : Bytes) : Bytes := 1 :: serializedMessage

/-- The factory reads headers of version 1 and no others. -/
lemma headerDeserializeFactory_eq_some {version c h r} :
    headerDeserializeFactory version c = some (.V1 h, r) ↔
      version = 1 ∧ h.Fits ∧ c = h.serialize ++ r := by
  unfold headerDeserializeFactory
  split
  case isTrue hv =>
    rw [← HeaderV1.deserialize_eq_some]
    simp [hv]
  case isFalse hv => simp [hv]

end ShardusNet.Wire
