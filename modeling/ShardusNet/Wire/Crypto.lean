import ShardusNet.Lib.Hex
/-!
# Crypto

Port of `crypto/src/lib.rs`: hashing, signing and opening signatures behind `ShardusCrypto`, over
the third-party crates the code calls.

The crates are a parameter: `Crates` holds the functions of `sodiumoxide`, `flate2` and `brotli`
that the code uses, and nothing is assumed of them here. A Rust panic is an outcome of its own: a
function that can reach an `expect`, an `unwrap` or a `panic!` returns in `Exec`, and `Panic` names
the place.
-/

namespace ShardusNet.Wire
open ByteCodec

/-- The places where the message path panics, each with the text of its `expect`. -/
inductive Panic where
  /-- "Cannot digest input" -/
  | digestInput
  /-- "Invalid public key" -/
  | invalidPublicKey
  /-- "Invalid secret key" -/
  | invalidSecretKey
  /-- "Invalid hex format for message", and the bare `unwrap`s of a hex decoding -/
  | invalidHex
  /-- "Failed to sign message" -/
  | signMessage
  /-- "Failed to serialize header" -/
  | serializeHeader
  /-- "Failed to deserialize message" -/
  | deserializeMessage
  /-- "Failed to deserialize header" -/
  | deserializeHeader
  /-- "Failed to decompress message" -/
  | decompressMessage
  deriving DecidableEq, Repr

/-- A computation that returns or panics. -/
abbrev Exec := Except Panic

/-- `Option::expect`. -/
def expect {α} (p : Panic) : Option α → Exec α
  | some a => .ok a
  | none => .error p

/-- `sodiumoxide::crypto::sign::PublicKey`: 32 bytes. -/
structure PublicKey where
  /-- The key. -/
  bytes : Bytes
  /-- A public key has 32 bytes. -/
  length_eq : bytes.length = 32
  deriving DecidableEq

/-- `sodiumoxide::crypto::sign::SecretKey`: 64 bytes. -/
structure SecretKey where
  /-- The key. -/
  bytes : Bytes
  /-- A secret key has 64 bytes. -/
  length_eq : bytes.length = 64
  deriving DecidableEq

/-- `PublicKey::from_slice`. -/
def PublicKey.fromSlice (b : Bytes) : Option PublicKey :=
  if h : b.length = 32 then some ⟨b, h⟩ else none

/-- `SecretKey::from_slice`. -/
def SecretKey.fromSlice (b : Bytes) : Option SecretKey :=
  if h : b.length = 64 then some ⟨b, h⟩ else none

/-- `from_slice` gives the key with these bytes, and only 32 bytes are a key. -/
lemma PublicKey.fromSlice_eq_some {b pk} : PublicKey.fromSlice b = some pk ↔ b = pk.bytes := by
  unfold PublicKey.fromSlice
  constructor
  · intro h
    split at h
    case isTrue => cases h; rfl
    case isFalse => cases h
  · rintro rfl
    rw [dif_pos pk.length_eq]

/-- The functions of third-party crates that the code calls. -/
structure Crates where
  /-- `generichash::hash(input, Some(32), Some(key))`, by key and input; `none` is its `Err`. -/
  genericHash : Bytes → Bytes → Option Bytes
  /-- `sign::sign`: the signature with the message it signs. -/
  sign : Bytes → SecretKey → Bytes
  /-- `sign::verify`: the signed message, if the signature is good; `none` is its `Err`. -/
  verify : Bytes → PublicKey → Option Bytes
  /-- `SecretKey::public_key`. -/
  publicKey : SecretKey → PublicKey
  /-- All bytes of a `GzEncoder` with the default level. -/
  gzEncode : Bytes → Bytes
  /-- `GzDecoder::read_to_end`. -/
  gzDecode : Bytes → Option Bytes
  /-- All bytes of a `CompressorReader` with buffer 4096, quality 5 and window 22. -/
  brotliEncode : Bytes → Bytes
  /-- `Decompressor::read_to_end`. -/
  brotliDecode : Bytes → Option Bytes

/-- `Format`: the form of a digest. -/
inductive Format where
  | hex
  | buffer
  deriving DecidableEq, Repr

/-- `HexStringOrBuffer`: bytes, or their hexadecimal text. -/
inductive HexStringOrBuffer where
  | hex (s : String)
  | buffer (b : Bytes)
  deriving DecidableEq

/-- `sodiumoxide::hex::decode`. -/
def hexDecode (s : String) : Option Bytes := Hex.decode s.toList

/-- `KeyPair`. -/
structure KeyPair where
  publicKey : PublicKey
  secretKey : SecretKey

/-- `ShardusCrypto`: the key of the keyed hash. -/
structure ShardusCrypto where
  hashKey : Bytes

namespace ShardusCrypto
variable (crates : Crates) (crypto : ShardusCrypto)

/-- `ShardusCrypto::get_key_pair_using_sk`. -/
def getKeyPairUsingSk (sk : HexStringOrBuffer) : Exec KeyPair := do
  let secretKey ← match sk with
    | .hex hex => do
      let buf ← expect .invalidHex (hexDecode hex)
      expect .invalidSecretKey (SecretKey.fromSlice buf)
    | .buffer buf => expect .invalidSecretKey (SecretKey.fromSlice buf)
  return { publicKey := crates.publicKey secretKey, secretKey := secretKey }

/-- `ShardusCrypto::get_pk`. -/
def getPk : HexStringOrBuffer → Exec PublicKey
  | .hex hex => do
    let buf ← expect .invalidHex (hexDecode hex)
    expect .invalidPublicKey (PublicKey.fromSlice buf)
  | .buffer buf => expect .invalidPublicKey (PublicKey.fromSlice buf)

/-- `ShardusCrypto::hash`. -/
def hash (input : Bytes) (fmt : Format) : Exec HexStringOrBuffer := do
  let digest ← expect .digestInput (crates.genericHash crypto.hashKey input)
  match fmt with
  | .hex => return .hex (String.ofList (Hex.encode digest))
  | .buffer => return .buffer digest

/-- `ShardusCrypto::sign`; `none` is its `Err`. -/
def sign (input : HexStringOrBuffer) (sk : SecretKey) : Option Bytes :=
  match input with
  | .hex hex => (hexDecode hex).map (crates.sign · sk)
  | .buffer buf => some (crates.sign buf sk)

/-- `ShardusCrypto::verify`. -/
def verify (msg : HexStringOrBuffer) (sig : Bytes) (pk : PublicKey) : Exec Bool := do
  let msgBuf ← match msg with
    | .hex hex => expect .invalidHex (hexDecode hex)
    | .buffer buf => pure buf
  match crates.verify sig pk with
  | some openedMsg => return openedMsg == msgBuf
  | none => return false

end ShardusCrypto

/-- A key pair whose signatures open to what was signed. -/
def KeyPair.Opens (crates : Crates) (kp : KeyPair) : Prop :=
  ∀ x, crates.verify (crates.sign x kp.secretKey) kp.publicKey = some x

/-! ## Stand-in crates -/

/-- A stand-in for the crates with the shapes of the real ones: digests of 32 bytes under a key of 16
    to 64 bytes, signatures of 64 bytes in front of the message, public keys in the second half of
    secret keys. `genuine pk x` says which signatures are good. -/
def standIn (genuine : PublicKey → Bytes → Bool) : Crates where
  genericHash key input :=
    if 16 ≤ key.length ∧ key.length ≤ 64 then some (le 32 (ofLe input)) else none
  sign x sk := sk.bytes ++ x
  verify s pk :=
    if (s.take 64).drop 32 = pk.bytes ∧ genuine pk (s.drop 64) then some (s.drop 64) else none
  publicKey sk := ⟨sk.bytes.drop 32, by simp [sk.length_eq]⟩
  gzEncode x := x
  gzDecode x := some x
  brotliEncode x := x
  brotliDecode x := some x

/-- A hash key of 16 bytes. -/
def standInCrypto : ShardusCrypto := ⟨List.replicate 16 0x64⟩

/-- A key pair of the stand-in. -/
def standInKeyPair : KeyPair where
  publicKey := ⟨List.replicate 32 7, rfl⟩
  secretKey := ⟨List.replicate 64 7, rfl⟩

/-- The stand-in opens the signatures of its key pair. -/
lemma standInKeyPair_opens : standInKeyPair.Opens (standIn fun _ _ => true) := by
  intro x
  have h64 : (List.replicate 64 (7 : UInt8)).length = 64 := rfl
  have htake : (List.replicate 64 7 ++ x).take 64 = List.replicate 64 7 := List.take_left' h64
  have hdrop : (List.replicate 64 7 ++ x).drop 64 = x := List.drop_left' h64
  simp only [standIn, standInKeyPair, htake, hdrop]
  rfl

end ShardusNet.Wire
