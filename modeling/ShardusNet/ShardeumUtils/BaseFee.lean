import ShardusNet.Lib.Hex
import ShardusNet.ShardeumUtils.Ecrecover
import Mathlib.Data.List.Count
/-!
# The base fee of a transaction

Port of `get_base_fee` and `pub_to_addr` in `shardeum_utils/src/lib.rs`, and of the rest of
`get_sender_address` in `shardus_net/src/lib.rs`, from the public key on. Of a typed transaction of
`ethers` what its accessors give is kept. A `U256` panics where it overflows, in every build; the
serialization of a public key and the hash are parameters.

* `intrinsicGas`: the gas that a transaction costs before it runs, in unbounded integers.
* `priced_iff`: the base fee never overflows, and is the intrinsic gas exactly for transactions with
  a recipient that is not the zero address.
-/

namespace ShardusNet.ShardeumUtils
open Checked

/-- `H160`, which is `Address`. -/
abbrev H160 := BitVec 160

/-- `NameOrAddress`. -/
inductive NameOrAddress where
  | Name (name : String)
  | Address (address : H160)

/-- `NameOrAddress::as_address`. -/
def NameOrAddress.asAddress : NameOrAddress → Option H160
  | .Name _ => none
  | .Address address => some address

/-- `TypedTransaction`; `recipient` is what `to` gives. -/
structure TypedTransaction where
  data : Option (List (BitVec 8))
  recipient : Option NameOrAddress
  gas : Option (BitVec 256)

/-- `unwrap` of an option. -/
def unwrap {α : Type} : Option α → Outcome α
  | some a => pure a
  | none => .panic

/-- The gas of a byte of data. -/
def byteGas (byte : BitVec 8) : BitVec 256 := if byte = 0 then 4 else 16

/-- `data_gas`. -/
def dataGas : Option (List (BitVec 8)) → Outcome (BitVec 256)
  | some data => data.foldlM (fun acc byte => add true acc (byteGas byte)) 0
  | none => pure 0

/-- `creation_gas`. -/
def creationGas : Option NameOrAddress → Outcome (BitVec 256)
  | some recipient => do
    let address ← unwrap recipient.asAddress
    return if address = 0 then 32000 else 0
  | none => pure 0

/-- `get_base_fee`. -/
def getBaseFee (tx : TypedTransaction) : Outcome (BitVec 256) := do
  let base_gas : BitVec 256 := 21000
  let data_gas ← dataGas tx.data
  let creation_gas ← creationGas tx.recipient
  let gas ← add true base_gas data_gas
  add true gas creation_gas

/-! ## The sender's address -/

/-- The functions on public keys that `pub_to_addr` calls. -/
structure PublicKeys (PublicKey : Type) where
  serializeUncompressed : PublicKey → Vector (BitVec 8) 65
  keccak256 : List (BitVec 8) → Vector (BitVec 8) 32

/-- `pub_to_addr`. -/
def pubToAddr {PublicKey : Type} (keys : PublicKeys PublicKey) (pubkey : PublicKey) :
    List (BitVec 8) × Bool :=
  let pub_key_serialized := (keys.serializeUncompressed pubkey).toList
  let is_valid := pub_key_serialized.length = 65
  let pub_key_bytes := pub_key_serialized.drop 1
  let hash := (keys.keccak256 pub_key_bytes).toList
  (hash.drop 12, is_valid)

/-- The object that `get_sender_address` returns. -/
structure SenderAddress where
  address : String
  isValid : Bool

/-- `get_sender_address`, for a transaction that was decoded and its typed form. -/
def getSenderAddress (secp : Secp256k1) (keys : PublicKeys secp.PublicKey) (checks : Bool)
    (tx : Transaction) (typed_tx : TypedTransaction) : Outcome SenderAddress := do
  let pubkey ← tx.pubkey secp checks
  let pubkey ← unwrap pubkey.toOption
  let (addr, is_valid) := pubToAddr keys pubkey
  let base_fee ← getBaseFee typed_tx
  let gas_limit := typed_tx.gas.getD 0
  let gas_valid : Bool := base_fee ≤ gas_limit
  return { address := "0x" ++ String.ofList (Hex.encode (addr.map UInt8.ofBitVec))
           isValid := is_valid && gas_valid }

/-! ## The fee and the intrinsic gas -/

/-- The gas of data: 4 for a zero byte, 16 for another one. -/
def bytesGas (data : List (BitVec 8)) : ℕ := 4 * data.count 0 + 16 * data.countP (· ≠ 0)

/-- The intrinsic gas of a transaction with this data and this recipient; one without a recipient
    creates a contract. -/
def intrinsicGas (data : Option (List (BitVec 8))) (recipient : Option H160) : ℕ :=
  21000 + bytesGas (data.getD []) + if recipient = none then 32000 else 0

/-- The typed form of a transaction with this data, this recipient and this gas limit. -/
def typedTransaction (data : Option (List (BitVec 8))) (recipient : Option H160)
    (gas : Option (BitVec 256)) : TypedTransaction :=
  ⟨data, recipient.map .Address, gas⟩

/-- The base fee is the intrinsic gas, and the transaction is valid only when its gas limit covers
    that. -/
structure Priced (secp : Secp256k1) (keys : PublicKeys secp.PublicKey) (checks : Bool)
    (tx : Transaction) (data : Option (List (BitVec 8))) (recipient : Option H160)
    (gas : Option (BitVec 256)) : Prop where
  fee : ∃ fee, (getBaseFee (typedTransaction data recipient gas)).Exact fee ∧
    fee.toNat = intrinsicGas data recipient
  covered : ∀ address wrapped,
    getSenderAddress secp keys checks tx (typedTransaction data recipient gas) =
      .value ⟨address, true⟩ wrapped →
      intrinsicGas data recipient ≤ (gas.getD 0).toNat

/-- The first byte has its own price. -/
lemma bytesGas_cons (byte : BitVec 8) (data : List (BitVec 8)) :
    bytesGas (byte :: data) = (byteGas byte).toNat + bytesGas data := by
  unfold bytesGas byteGas
  split
  case isTrue hbyte =>
    rw [hbyte, List.count_cons_self, List.countP_cons_of_neg (by simp)]
    show _ = 4 + _
    omega
  case isFalse hbyte =>
    rw [List.count_cons_of_ne hbyte, List.countP_cons_of_pos (by simpa using hbyte)]
    show _ = 16 + _
    omega

/-- The prices of the bytes add up. -/
lemma sum_byteGas (data : List (BitVec 8)) :
    (data.map fun byte => (byteGas byte).toNat).sum = bytesGas data := by
  induction data with
  | nil => rfl
  | cons byte data ih => rw [List.map_cons, List.sum_cons, ih, bytesGas_cons]

/-- A byte costs 16 at most. -/
lemma bytesGas_le (data : List (BitVec 8)) : bytesGas data ≤ 16 * data.length := by
  induction data with
  | nil => exact le_refl 0
  | cons byte data ih =>
    have hbyte : (byteGas byte).toNat ≤ 16 := by
      unfold byteGas
      split <;> decide
    rw [bytesGas_cons, List.length_cons]
    omega

/-- What `get_base_fee` returns: it takes the zero address, and no other recipient, for a
    creation. -/
lemma getBaseFee_exact (data : Option (List (BitVec 8))) (recipient : Option H160)
    (gas : Option (BitVec 256)) (hlen : (data.getD []).length < 2 ^ 64) :
    ∃ fee, (getBaseFee (typedTransaction data recipient gas)).Exact fee ∧
      fee.toNat = 21000 + bytesGas (data.getD []) + if recipient = some 0 then 32000 else 0 := by
  have hle := bytesGas_le (data.getD [])
  obtain ⟨data_gas, hdata, hdataVal⟩ : ∃ gas, (dataGas data).Exact gas ∧
      gas.toNat = bytesGas (data.getD []) := by
    cases data with
    | none => exact ⟨0, rfl, rfl⟩
    | some data =>
      rw [Option.getD_some] at hle hlen
      have hzero : (0 : BitVec 256).toNat = 0 := rfl
      have hfits : (0 : BitVec 256).toNat + (data.map fun byte => (byteGas byte).toNat).sum < 2 ^ 256 := by
        rw [sum_byteGas, hzero]
        omega
      obtain ⟨gas, hgas, hval⟩ := foldlM_add_exact true 0 hfits
      refine ⟨gas, hgas, ?_⟩
      rw [hval, sum_byteGas, hzero, Option.getD_some, Nat.zero_add]
  obtain ⟨creation_gas, hcreation, hcreationVal⟩ : ∃ gas,
      (creationGas (recipient.map .Address)).Exact gas ∧
        gas.toNat = if recipient = some 0 then 32000 else 0 := by
    cases recipient with
    | none => exact ⟨0, rfl, rfl⟩
    | some address =>
      refine ⟨if address = 0 then 32000 else 0, rfl, ?_⟩
      by_cases haddress : address = 0
      · rw [if_pos haddress, if_pos (congrArg some haddress)]
        rfl
      · rw [if_neg haddress, if_neg (fun e => haddress (Option.some.inj e))]
        rfl
  have hcreationLe : (if recipient = some 0 then 32000 else 0) ≤ 32000 := by split <;> omega
  have hofNat : ∀ n, n < 2 ^ 256 → (BitVec.ofNat 256 n).toNat = n := by
    intro n hn
    rw [BitVec.toNat_ofNat, Nat.mod_eq_of_lt hn]
  have hbase : (21000 : BitVec 256).toNat = 21000 := rfl
  refine ⟨.ofNat 256 (21000 + bytesGas (data.getD []) + if recipient = some 0 then 32000 else 0), ?_,
    hofNat _ (by omega)⟩
  unfold getBaseFee
  simp only [Outcome.exact_bind, add_exact]
  refine ⟨data_gas, hdata, creation_gas, hcreation,
    .ofNat 256 (21000 + bytesGas (data.getD [])), ?_, ?_⟩
  · rw [hofNat _ (by omega), hbase, hdataVal]
  · rw [hofNat _ (by omega), hofNat _ (by omega), hcreationVal]

/-- A valid transaction has a gas limit that covers its base fee. -/
lemma le_gas_of_isValid {secp : Secp256k1} {keys : PublicKeys secp.PublicKey} {checks tx typed_tx}
    {address wrapped}
    (h : getSenderAddress secp keys checks tx typed_tx = .value ⟨address, true⟩ wrapped)
    {fee} (hfee : (getBaseFee typed_tx).Exact fee) : fee.toNat ≤ (typed_tx.gas.getD 0).toNat := by
  unfold getSenderAddress at h
  obtain ⟨_, _, _, _, h⟩ := Outcome.bind_eq_value h
  obtain ⟨_, _, _, _, h⟩ := Outcome.bind_eq_value h
  obtain ⟨fee', _, _, hfee', h⟩ := Outcome.bind_eq_value h
  rw [hfee] at hfee'
  cases hfee'
  have hvalid := congrArg SenderAddress.isValid (Outcome.value.inj h).1
  exact of_decide_eq_true (Bool.and_eq_true _ _ ▸ hvalid).2

/-- The base fee never overflows, and it is the intrinsic gas exactly when there is a recipient that
    is not the zero address. -/
theorem priced_iff {data : Option (List (BitVec 8))} (hlen : (data.getD []).length < 2 ^ 64)
    (recipient : Option H160) (gas : Option (BitVec 256)) (secp : Secp256k1)
    (keys : PublicKeys secp.PublicKey) (checks : Bool) (tx : Transaction) :
    (∃ fee, (getBaseFee (typedTransaction data recipient gas)).Exact fee) ∧
      (Priced secp keys checks tx data recipient gas ↔
        ∃ address, recipient = some address ∧ address ≠ 0) := by
  obtain ⟨fee, hfee, hval⟩ := getBaseFee_exact data recipient gas hlen
  refine ⟨⟨fee, hfee⟩, ?_⟩
  constructor
  · rintro ⟨⟨fee', hfee', hval'⟩, _⟩
    rw [hfee] at hfee'
    cases hfee'
    rw [hval, intrinsicGas] at hval'
    cases recipient with
    | none => simp at hval'
    | some address =>
      refine ⟨address, rfl, ?_⟩
      rintro rfl
      simp at hval'
  · rintro ⟨address, rfl, hne⟩
    have hsame : fee.toNat = intrinsicGas data (some address) := by
      rw [hval, intrinsicGas, if_neg (fun e => hne (Option.some.inj e)), if_neg nofun]
    refine ⟨⟨fee, hfee, hsame⟩, ?_⟩
    intro address' wrapped h
    rw [← hsame]
    exact le_gas_of_isValid h hfee

/-! ## Examples -/

/-- Functions on public keys without content. -/
def sampleKeys : PublicKeys Unit where
  serializeUncompressed _ := .replicate 65 4
  keccak256 _ := .replicate 32 0

/-- A call with two bytes of data costs 21020. -/
theorem priced_iff_call :
    Priced recoveringSecp sampleKeys true ⟨none, 27, 1, 1, none, sampleHash⟩ (some [0, 1]) (some 1)
      (some 21020) :=
  (priced_iff (by decide) (some 1) (some 21020) recoveringSecp sampleKeys true
    ⟨none, 27, 1, 1, none, sampleHash⟩).2.mpr ⟨1, rfl, by decide⟩

/-- A transaction without a recipient and without data has a base fee of 21000, so that it is valid
    with a gas limit of 21000, although it creates a contract and costs 53000; and a call of the
    zero address has a base fee of 53000. -/
theorem priced_fails_creation :
    (∃ address, getSenderAddress recoveringSecp sampleKeys true
      ⟨none, 27, 1, 1, none, sampleHash⟩ (typedTransaction none none (some 21000)) =
        .value ⟨address, true⟩ false) ∧
    intrinsicGas none none = 53000 ∧
    ¬ Priced recoveringSecp sampleKeys true ⟨none, 27, 1, 1, none, sampleHash⟩ none none
      (some 21000) ∧
    getBaseFee (typedTransaction none (some 0) (some 21000)) = .value 53000 false ∧
    intrinsicGas none (some 0) = 21000 := by
  have hvalid : ∃ address, getSenderAddress recoveringSecp sampleKeys true
      ⟨none, 27, 1, 1, none, sampleHash⟩ (typedTransaction none none (some 21000)) =
        .value ⟨address, true⟩ false := ⟨_, rfl⟩
  refine ⟨hvalid, rfl, ?_, rfl, rfl⟩
  intro h
  obtain ⟨address, hvalue⟩ := hvalid
  have hle : 53000 ≤ 21000 := h.covered address false hvalue
  omega

end ShardusNet.ShardeumUtils
