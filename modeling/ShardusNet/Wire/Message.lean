import ShardusNet.Wire.Crypto
/-!
# Messages

Port of `shardus_net/src/message.rs`: the signed message that a frame with a header carries.

* `Message.serialize`/`Message.deserialize` and the same for `Sign`. A cursor is the bytes it has
  not read yet.
* `Message.sign`/`Message.verify`: both hash `serializeUnsigned`.
* `Sign.deserialize_eq_some`, `Message.deserialize_eq_some`: the codecs are exact on values whose
  fields fit their `u32` lengths (`Fits`).
* `Message.message_exact`: the codec read at a position of any byte string.
* `Message.serializeUnsigned_inj`: what is signed determines version, header and data.
-/

namespace ShardusNet.Wire
open ByteCodec

/-- `Sign`: the signer's public key, and the signature with the message it signs. -/
structure Sign where
  owner : Bytes
  sig : Bytes
  deriving DecidableEq

/-- `Message`. -/
structure Message where
  headerVersion : UInt8
  header : Bytes
  data : Bytes
  sign : Sign
  deriving DecidableEq

namespace Sign

/-- `Sign::serialize`. -/
def serialize (s : Sign) : Bytes := sized s.owner ++ sized s.sig

/-- `Sign::deserialize`. -/
def deserialize (cursor : Bytes) : Option (Sign × Bytes) := do
  let (owner, cursor) ← readSized cursor
  let (signature, cursor) ← readSized cursor
  some (⟨owner, signature⟩, cursor)

/-- `Sign::to_json_string`. -/
def toJsonString (s : Sign) : String :=
  "\x7b\"owner\": \"" ++ String.ofList (Hex.encode s.owner) ++ "\", \"sig\": \"" ++
    String.ofList (Hex.encode s.sig) ++ "\"\x7d"

/-- Both fields fit their `u32` length. -/
structure Fits (s : Sign) : Prop where
  owner : s.owner.length < 2 ^ 32
  sig : s.sig.length < 2 ^ 32

/-- `deserialize` succeeds exactly on serialized signs, with any bytes after them. -/
lemma deserialize_eq_some {c s r} :
    deserialize c = some (s, r) ↔ s.Fits ∧ c = s.serialize ++ r := by
  simp only [deserialize, Option.bind_eq_bind, Option.bind_eq_some_iff, Prod.exists,
    readSized_eq_some, serialize, List.append_assoc]
  constructor
  · rintro ⟨owner, c', ⟨ho, rfl⟩, sig, c'', ⟨hs, rfl⟩, e⟩
    cases e
    exact ⟨⟨ho, hs⟩, rfl⟩
  · rintro ⟨⟨ho, hs⟩, rfl⟩
    exact ⟨s.owner, _, ⟨ho, rfl⟩, s.sig, r, ⟨hs, rfl⟩, rfl⟩

end Sign

namespace Message

/-- `Message::new_unsigned`. -/
def newUnsigned (headerVersion : UInt8) (header data : Bytes) : Message :=
  { headerVersion, header, data, sign := ⟨[], []⟩ }

/-- `Message::serialize_unsigned`. -/
def serializeUnsigned (m : Message) : Bytes :=
  le 1 m.headerVersion.toNat ++ sized m.header ++ sized m.data

/-- `Message::serialize`. -/
def serialize (m : Message) : Bytes := m.serializeUnsigned ++ m.sign.serialize

/-- `Message::deserialize`. -/
def deserialize (cursor : Bytes) : Option (Message × Bytes) := do
  let (headerVersion, cursor) ← readLe 1 cursor
  let (header, cursor) ← readSized cursor
  let (data, cursor) ← readSized cursor
  let (sign, cursor) ← Sign.deserialize cursor
  some (⟨UInt8.ofNat headerVersion, header, data, sign⟩, cursor)

variable (crates : Crates) (crypto : ShardusCrypto)

/-- `Message::sign`. -/
def signWith (m : Message) (keyPair : KeyPair) : Exec Message := do
  let hash ← crypto.hash crates m.serializeUnsigned .buffer
  let signature ← expect .signMessage (ShardusCrypto.sign crates hash keyPair.secretKey)
  return { m with sign := ⟨keyPair.publicKey.bytes, signature⟩ }

/-- `Message::verify`. -/
def verify (m : Message) : Exec Bool := do
  let hash ← crypto.hash crates m.serializeUnsigned .buffer
  let pk ← ShardusCrypto.getPk (.buffer m.sign.owner)
  ShardusCrypto.verify crates hash m.sign.sig pk

/-- Every field fits its `u32` length. -/
structure Fits (m : Message) : Prop where
  header : m.header.length < 2 ^ 32
  data : m.data.length < 2 ^ 32
  sign : m.sign.Fits

/-- `Fits` says that the four byte strings of a message are short enough. -/
lemma fits_iff {m : Message} :
    m.Fits ↔ m.header.length < 2 ^ 32 ∧ m.data.length < 2 ^ 32 ∧ m.sign.owner.length < 2 ^ 32 ∧
      m.sign.sig.length < 2 ^ 32 := by
  constructor
  · intro h
    exact ⟨h.header, h.data, h.sign.owner, h.sign.sig⟩
  · intro ⟨hh, hd, ho, hs⟩
    exact ⟨hh, hd, ⟨ho, hs⟩⟩

/-- `deserialize` succeeds exactly on serialized messages, with any bytes after them. -/
lemma deserialize_eq_some {c m r} :
    deserialize c = some (m, r) ↔ m.Fits ∧ c = m.serialize ++ r := by
  simp only [deserialize, Option.bind_eq_bind, Option.bind_eq_some_iff, Prod.exists, readLe_eq_some,
    readSized_eq_some, Sign.deserialize_eq_some, serialize, serializeUnsigned, List.append_assoc]
  constructor
  · rintro ⟨v, c₁, ⟨hv, rfl⟩, header, c₂, ⟨hh, rfl⟩, data, c₃, ⟨hd, rfl⟩, sign, c₄, ⟨hs, rfl⟩, e⟩
    cases e
    have e : (UInt8.ofNat v).toNat = v := by
      simp only [UInt8.toNat_ofNat']
      omega
    exact ⟨⟨hh, hd, hs⟩, by rw [e]⟩
  · rintro ⟨⟨hh, hd, hs⟩, rfl⟩
    refine ⟨m.headerVersion.toNat, _, ⟨m.headerVersion.toNat_lt, rfl⟩, m.header, _, ⟨hh, rfl⟩,
      m.data, _, ⟨hd, rfl⟩, m.sign, r, ⟨hs, rfl⟩, ?_⟩
    simp

/-- A message is read exactly from its own bytes. -/
lemma exact : Exact deserialize serialize Fits := fun _ _ _ => deserialize_eq_some

/-- On a byte string `b`, `deserialize` returns `m` and stops at position `n` exactly where the
    first `n` bytes are the encoding of `m` and the fields of `m` fit their lengths; so it undoes
    `serialize` whatever follows, and refuses every other input. -/
theorem message_exact (b : Bytes) :
    (∀ n m, (∃ cursor, deserialize b = some (m, cursor) ∧ CursorAt b n cursor) ↔
      n ≤ b.length ∧ b.take n = m.serialize ∧ m.header.length < 2 ^ 32 ∧ m.data.length < 2 ^ 32 ∧
        m.sign.owner.length < 2 ^ 32 ∧ m.sign.sig.length < 2 ^ 32) ∧
      (∀ m, m.Fits → deserialize (m.serialize ++ b) = some (m, b)) ∧
      (deserialize b = none ↔
        ∀ n (m : Message), n ≤ b.length → b.take n = m.serialize → ¬ m.Fits) := by
  refine ⟨?_, ?_, exact.refuses⟩
  · intro n m
    rw [exact.decodes_at, fits_iff]
  · intro m hm
    exact deserialize_eq_some.mpr ⟨hm, rfl⟩

/-- What is signed determines version, header and data. -/
lemma serializeUnsigned_inj {m n : Message}
    (hmh : m.header.length < 2 ^ 32) (hmd : m.data.length < 2 ^ 32)
    (hnh : n.header.length < 2 ^ 32) (hnd : n.data.length < 2 ^ 32)
    (e : m.serializeUnsigned = n.serializeUnsigned) :
    m.headerVersion = n.headerVersion ∧ m.header = n.header ∧ m.data = n.data := by
  simp only [serializeUnsigned, List.append_assoc] at e
  obtain ⟨ev, e⟩ := List.append_inj e (by simp)
  have hv : m.headerVersion = n.headerVersion := by
    apply UInt8.toNat_inj.mp
    exact le_inj m.headerVersion.toNat_lt n.headerVersion.toNat_lt ev
  obtain ⟨hh, e⟩ := sized_append_inj hmh hnh e
  have e' : sized m.data ++ [] = sized n.data ++ [] := by rw [e]
  exact ⟨hv, hh, (sized_append_inj hmd hnd e').1⟩

/-- Signing changes the sign and nothing else, and the signature signs the hash of the message. -/
lemma signWith_eq_ok {m m' : Message} {kp : KeyPair} :
    m.signWith crates crypto kp = .ok m' ↔
      ∃ digest, crates.genericHash crypto.hashKey m.serializeUnsigned = some digest ∧
        m' = { m with sign := ⟨kp.publicKey.bytes, crates.sign digest kp.secretKey⟩ } := by
  cases h : crates.genericHash crypto.hashKey m.serializeUnsigned with
  | none => simp [signWith, ShardusCrypto.hash, h, expect, bind, Except.bind]
  | some digest =>
    simp [signWith, ShardusCrypto.hash, h, expect, bind, Except.bind, pure, Except.pure,
      ShardusCrypto.sign, eq_comm]

/-- `verify` returns exactly when the hash is defined and the owner is a public key, and then it
    compares the opened signature with the hash. -/
lemma verify_eq_ok {m : Message} {b} :
    m.verify crates crypto = .ok b ↔
      ∃ digest pk, crates.genericHash crypto.hashKey m.serializeUnsigned = some digest ∧
        m.sign.owner = pk.bytes ∧ b = decide (crates.verify m.sign.sig pk = some digest) := by
  cases h : crates.genericHash crypto.hashKey m.serializeUnsigned with
  | none => simp [verify, ShardusCrypto.hash, h, expect, bind, Except.bind]
  | some digest =>
    cases hp : PublicKey.fromSlice m.sign.owner with
    | none =>
      have hne : ∀ pk : PublicKey, m.sign.owner ≠ pk.bytes := by
        intro pk e
        rw [PublicKey.fromSlice_eq_some.mpr e] at hp
        cases hp
      simp [verify, ShardusCrypto.hash, ShardusCrypto.getPk, h, hp, hne, expect, bind, Except.bind,
        pure, Except.pure]
    | some pk =>
      have ho := PublicKey.fromSlice_eq_some.mp hp
      have huniq : ∀ pk' : PublicKey, m.sign.owner = pk'.bytes → pk' = pk := by
        intro pk' e
        rw [PublicKey.fromSlice_eq_some.mpr e] at hp
        exact Option.some.inj hp
      have hb : m.verify crates crypto = .ok (decide (crates.verify m.sign.sig pk = some digest)) := by
        cases hv : crates.verify m.sign.sig pk <;>
          simp [verify, ShardusCrypto.hash, ShardusCrypto.getPk, ShardusCrypto.verify, h, hp, hv,
            expect, bind, Except.bind, pure, Except.pure]
        rw [Bool.eq_iff_iff, beq_iff_eq, decide_eq_true_iff]
      rw [hb]
      constructor
      · intro e
        exact ⟨digest, pk, rfl, ho, (Except.ok.inj e).symm⟩
      · rintro ⟨digest', pk', hd, ho', rfl⟩
        rw [huniq pk' ho', Option.some.inj hd]

/-- `verify` does not panic exactly when the hash is defined and the owner has 32 bytes. -/
lemma verify_returns {m : Message} :
    (∃ b, m.verify crates crypto = .ok b) ↔
      (crates.genericHash crypto.hashKey m.serializeUnsigned).isSome ∧ m.sign.owner.length = 32 := by
  simp only [verify_eq_ok]
  constructor
  · rintro ⟨b, digest, pk, hd, ho, _⟩
    exact ⟨by rw [hd]; rfl, by rw [ho, pk.length_eq]⟩
  · rintro ⟨hd, ho⟩
    obtain ⟨digest, hd⟩ := Option.isSome_iff_exists.mp hd
    exact ⟨_, digest, ⟨m.sign.owner, ho⟩, hd, rfl, rfl⟩

end Message

end ShardusNet.Wire
